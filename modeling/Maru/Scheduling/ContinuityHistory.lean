import Maru.Scheduling.ContinuityKnownState

/-!
# Runs of the continuity verifier

A known state that is accepted has one form (`known_eq_ok`), which fixes the manifests it
keeps (`Recorded.unique`); a verification that is accepted leaves one behind
(`verifyContinuityWithKnownState_eq_ok`). So the next verification accepts the state, and no
later package goes back behind an earlier one (`verifier_history`).
-/

namespace Maru.Scheduling

open Calendar Json

variable {lib : Library} {scope : ContinuityScope} {trust : List ContinuityTrustKey}
  {manifest latest : ContinuityManifest} {signature : ByteArray} {clock : DateTime}

/-! ## Checkpoints -/

/-- A checkpoint that is accepted: a manifest in UTC, of the expected purpose, with its signature.
-/
structure CheckpointOf (lib : Library) (scope : ContinuityScope) (trust : List ContinuityTrustKey)
    (manifest : ContinuityManifest) (signature : ByteArray) : Prop where
  documented : Documented lib manifest manifest.observedAt manifest.issuedAt manifest.expiresAt
  purpose : manifest.scope.purpose = scope.purpose
  signatureSize : signature.size ≤ signatureBytes
  trusted : trustedSignature lib manifest signature trust = .ok ()

theorem members_checkpoint {members : List (String × Json)} (h : members.map Prod.fst = checkpointKeys) :
    ∃ m s, members = [("manifest", m), ("signature", s)] := by
  match members, h with
  | [(_, m), (_, s)], h =>
    simp only [List.map_cons, List.map_nil, checkpointKeys, List.cons.injEq, and_true] at h
    obtain ⟨rfl, rfl⟩ := h
    exact ⟨m, s, rfl⟩

theorem checkpoint_eq_ok {value : Json} (h : checkpoint lib value scope trust = .ok manifest) :
    ∃ signature, CheckpointOf lib scope trust manifest signature ∧
      value.chars = (checkpointValue manifest signature).chars := by
  simp only [checkpoint, bind_eq_ok, canonical_eq_ok, require_eq_ok, base64_eq_ok, pure_eq_ok] at h
  obtain ⟨bytes, ⟨-, hbytes⟩, members, hjson, manifest', ⟨value', hm, decoded⟩, -, purpose,
    signature, ⟨value'', hs, rfl, signatureSize⟩, _, trusted, rfl⟩ := h
  obtain ⟨keys, hmembers, -⟩ := json_eq_ok hjson
  obtain ⟨m, s, rfl⟩ := members_checkpoint keys
  obtain rfl : m = value' := Except.ok.inj hm
  obtain rfl : s = _ := Except.ok.inj hs
  obtain ⟨d, rfl⟩ := decodeManifest_eq_ok decoded
  exact ⟨signature, ⟨d, purpose, signatureSize, trusted⟩, encode_eq_iff.mp (hbytes.symm.trans hmembers)⟩

theorem CheckpointOf.checkpoint (h : CheckpointOf lib scope trust manifest signature) :
    checkpoint lib (checkpointValue manifest signature) scope trust = .ok manifest := by
  have canon := checkpoint_canonical h.documented.canonical signature
  have small : size (checkpointValue manifest signature).chars ≤ maxContinuityCheckpointBytes :=
    (size_checkpoint_le (size_document_le h.documented) h.signatureSize).trans (by decide)
  simp only [Scheduling.checkpoint, bind_eq_ok, require_eq_ok, base64_eq_ok, pure_eq_ok]
  exact ⟨_, canonical_of_canonical canon, _, json_dumps lib.floatRepr canon rfl small, manifest,
    ⟨manifest.document, rfl, decodeManifest_document h.documented⟩, (), h.purpose, signature,
    ⟨_, rfl, rfl, h.signatureSize⟩, (), h.trusted, rfl⟩

theorem document_injective {manifest' : ContinuityManifest}
    (d : Documented lib manifest manifest.observedAt manifest.issuedAt manifest.expiresAt)
    (d' : Documented lib manifest' manifest'.observedAt manifest'.issuedAt manifest'.expiresAt)
    (h : manifest.document = manifest'.document) : manifest = manifest' := by
  have read : decodeManifest lib manifest.document = .ok manifest := decodeManifest_document d
  have read' : decodeManifest lib manifest'.document = .ok manifest' := decodeManifest_document d'
  rw [h] at read
  exact Except.ok.inj (read.symm.trans read')

/-! ## The known state -/

/-- A high water mark as it is written. -/
def highWaterValue : Option (ContinuityManifest × ByteArray) → Json
  | none => .null
  | some (manifest, signature) => checkpointValue manifest signature

theorem highWaterCheckpoint_eq_ok {value : Json} {high : Option ContinuityManifest}
    (h : highWaterCheckpoint lib value scope trust = .ok high) :
    ∃ mark : Option (ContinuityManifest × ByteArray), high = mark.map Prod.fst ∧
      (∀ m ∈ mark, CheckpointOf lib scope trust m.1 m.2) ∧ value.chars = (highWaterValue mark).chars := by
  unfold highWaterCheckpoint at h
  split at h
  · rename_i null
    cases h
    exact ⟨none, rfl, by simp, by rw [null]; rfl⟩
  · simp only [bind_eq_ok, pure_eq_ok] at h
    obtain ⟨manifest, accepted, rfl⟩ := h
    obtain ⟨signature, of, chars⟩ := checkpoint_eq_ok accepted
    exact ⟨some (manifest, signature), rfl, by rintro _ ⟨⟩; exact of, chars⟩

theorem highWaterCheckpoint_value {mark : Option (ContinuityManifest × ByteArray)}
    (h : ∀ m ∈ mark, CheckpointOf lib scope trust m.1 m.2) :
    highWaterCheckpoint lib (highWaterValue mark) scope trust = .ok (mark.map Prod.fst) := by
  unfold highWaterCheckpoint
  cases mark with
  | none => exact if_pos rfl
  | some m =>
    rw [if_neg nofun, show highWaterValue (some m) = checkpointValue m.1 m.2 from rfl, (h m rfl).checkpoint]
    rfl

theorem marks_documented {mark : Option (ContinuityManifest × ByteArray)}
    (h : ∀ m ∈ mark, CheckpointOf lib scope trust m.1 m.2) :
    ∀ high ∈ mark.map Prod.fst, Documented lib high high.observedAt high.issuedAt high.expiresAt := by
  intro high hhigh
  obtain ⟨m, hm, rfl⟩ := Option.map_eq_some_iff.mp hhigh
  exact (h m hm).documented

/-- The high water mark is the latest manifest's, where that has a pointer, and is no newer. -/
def HighWaterMatches (latest : ContinuityManifest) : Option ContinuityManifest → Prop
  | none => latest.pointerVersion = none
  | some high => high.pointerVersion ≠ none ∧ high.observedAt.wall ≤ latest.observedAt.wall ∧
      high.issuedAt.wall ≤ latest.issuedAt.wall ∧
      (latest.pointerVersion = none ∨ latest.pointerVersion = high.pointerVersion)

theorem checkHighWater_eq_ok {high : Option ContinuityManifest}
    (d : Documented lib latest latest.observedAt latest.issuedAt latest.expiresAt)
    (dh : ∀ h ∈ high, Documented lib h h.observedAt h.issuedAt h.expiresAt) :
    checkHighWater latest high = .ok () ↔ HighWaterMatches latest high := by
  cases high with
  | none => exact require_eq_ok
  | some high =>
    have dh := dh high rfl
    simp only [checkHighWater, bind_eq_ok, require_eq_ok, utc_eq_ok, d.observedUtc, d.issuedUtc,
      dh.observedUtc, dh.issuedUtc, Option.some.injEq, exists_eq_left', HighWaterMatches]

/-- What a known state that is accepted records. -/
structure Recorded (lib : Library) (scope : ContinuityScope) (trust : List ContinuityTrustKey)
    (latest : ContinuityManifest) (signature : ByteArray) (mark : Option (ContinuityManifest × ByteArray))
    (clock : DateTime) : Prop where
  latestOf : CheckpointOf lib scope trust latest signature
  markOf : ∀ m ∈ mark, CheckpointOf lib scope trust m.1 m.2
  clockUtc : clock.toUtc = some clock
  fresh : latest.issuedAt.wall ≤ clock.wall ∧ clock.wall < latest.expiresAt.wall
  high : HighWaterMatches latest (mark.map Prod.fst)

def knownStateMembers (latest : ContinuityManifest) (signature : ByteArray)
    (mark : Option (ContinuityManifest × ByteArray)) (clock : DateTime) : List (String × Json) :=
  [("contract", .str continuityKnownStateContract), ("last_verified_at", .str clock.isoformat),
    ("latest", checkpointValue latest signature), ("release_high_water", highWaterValue mark)]

/-- The bytes that record it. -/
def knownStateBytes (latest : ContinuityManifest) (signature : ByteArray)
    (mark : Option (ContinuityManifest × ByteArray)) (clock : DateTime) : ByteArray :=
  (Json.obj (knownStateMembers latest signature mark clock)).encode

section

variable {mark : Option (ContinuityManifest × ByteArray)}

theorem Recorded.canonical (r : Recorded lib scope trust latest signature mark clock) :
    (Json.obj (knownStateMembers latest signature mark clock)).Canonical := by
  have hlatest : (checkpointValue latest signature).Canonical := checkpoint_canonical r.latestOf.documented.canonical _
  have hmark : (highWaterValue mark).Canonical := by
    cases h : mark with
    | none => exact trivial
    | some m => exact checkpoint_canonical (r.markOf m h).documented.canonical _
  simp only [knownStateMembers, Canonical, CanonicalMembers, hlatest, hmark, true_and, and_true]
  show knownStateKeys.Pairwise (· < ·)
  decide

theorem Recorded.size_le (r : Recorded lib scope trust latest signature mark clock) :
    size (Json.obj (knownStateMembers latest signature mark clock)).chars ≤ maxKnownStateBytes := by
  have names : size (quote "contract") = 10 ∧ size (quote "last_verified_at") = 18 ∧ size (quote "latest") = 8 ∧
      size (quote "release_high_water") = 20 ∧ size (quote continuityKnownStateContract) ≤ 60 := by decide
  have hlatest : size (checkpointValue latest signature).chars ≤ 2800 :=
    size_checkpoint_le (size_document_le r.latestOf.documented) r.latestOf.signatureSize
  have hmark : size (highWaterValue mark).chars ≤ 2800 := by
    cases h : mark with
    | none => decide
    | some m => exact size_checkpoint_le (size_document_le (r.markOf m h).documented) (r.markOf m h).signatureSize
  have hclock := size_date_le r.clockUtc
  have limit : maxKnownStateBytes = 9216 := by decide
  simp only [knownStateMembers, size_obj_cons, size_membersChars_cons, size_membersChars_nil, size_str, limit]
  omega

theorem members_knownState {members : List (String × Json)} (h : members.map Prod.fst = knownStateKeys) :
    ∃ c t l r, members = [("contract", c), ("last_verified_at", t), ("latest", l), ("release_high_water", r)] := by
  match members, h with
  | [(_, c), (_, t), (_, l), (_, r)], h =>
    simp only [List.map_cons, List.map_nil, knownStateKeys, List.cons.injEq, and_true] at h
    obtain ⟨rfl, rfl, rfl, rfl⟩ := h
    exact ⟨c, t, l, r, rfl⟩

/-- A known state is accepted just where it is the canonical record of what it keeps. -/
theorem known_eq_ok {data : ByteArray} {state : KnownState} :
    known lib data scope trust = .ok state ↔ ∃ latest signature mark clock,
      Recorded lib scope trust latest signature mark clock ∧ data = knownStateBytes latest signature mark clock ∧
        state = ⟨knownStateMembers latest signature mark clock, latest, mark.map Prod.fst⟩ := by
  simp only [known, bind_eq_ok, require_eq_ok, utc_eq_ok, pure_eq_ok]
  constructor
  · rintro ⟨members, hjson, contract, hcontract, -, rfl, latest, ⟨latestValue, hlatest, hcheck⟩, issued, hissued,
      clock, ⟨clockValue, hclock, hdate⟩, expires, hexpires, -, fresh, high, ⟨highValue, hhigh, hmark⟩, _, hmatch, rfl⟩
    obtain ⟨keys, hdata, loaded⟩ := json_eq_ok hjson
    obtain ⟨c, t, l, r, rfl⟩ := members_knownState keys
    obtain rfl : c = _ := Except.ok.inj hcontract
    obtain rfl : t = _ := Except.ok.inj hclock
    obtain rfl : l = _ := Except.ok.inj hlatest
    obtain rfl : r = _ := Except.ok.inj hhigh
    obtain ⟨signature, of, lchars⟩ := checkpoint_eq_ok hcheck
    obtain ⟨mark, hmk, ofMark, rchars⟩ := highWaterCheckpoint_eq_ok hmark
    obtain ⟨hutc, ht⟩ := date_eq_ok hdate
    subst hmk ht
    obtain rfl : issued = latest.issuedAt := Option.some.inj (hissued.symm.trans of.documented.issuedUtc)
    obtain rfl : expires = latest.expiresAt := Option.some.inj (hexpires.symm.trans of.documented.expiresUtc)
    have recorded : Recorded lib scope trust latest signature mark clock :=
      ⟨of, ofMark, hutc, fresh, (checkHighWater_eq_ok of.documented (marks_documented ofMark)).mp hmatch⟩
    -- The text is that of the canonical record, which is read as just one value.
    have text : (Json.obj [("contract", .str continuityKnownStateContract), ("last_verified_at", .str clock.isoformat),
        ("latest", l), ("release_high_water", r)]).dumps =
          (Json.obj (knownStateMembers latest signature mark clock)).dumps := by
      simp only [dumps, knownStateMembers, chars, membersChars, lchars, rchars]
    have read := loads_dumps lib.floatRepr recorded.canonical
    rw [← text, loaded] at read
    have same := Option.some.inj read
    exact ⟨latest, signature, mark, clock, recorded, by rw [hdata, same]; rfl, by rw [Json.obj.inj same]⟩
  · rintro ⟨latest, signature, mark, clock, r, hdata, rfl⟩
    have read : json lib.floatRepr data knownStateKeys maxKnownStateBytes =
        .ok (knownStateMembers latest signature mark clock) := by
      rw [hdata]
      exact json_dumps lib.floatRepr r.canonical rfl r.size_le
    exact ⟨_, read, _, rfl, (), rfl, latest, ⟨_, rfl, r.latestOf.checkpoint⟩, _, r.latestOf.documented.issuedUtc, clock,
      ⟨_, rfl, date_isoformat r.clockUtc⟩, _, r.latestOf.documented.expiresUtc, (), r.fresh, _,
      ⟨_, rfl, highWaterCheckpoint_value r.markOf⟩, (),
        (checkHighWater_eq_ok r.latestOf.documented (marks_documented r.markOf)).mpr r.high, rfl⟩

/-- Bytes record one state, whatever the purpose and the trust they are read under. -/
theorem known_unique {data : ByteArray} {scope' : ContinuityScope} {trust' : List ContinuityTrustKey}
    {state state' : KnownState} (h : known lib data scope trust = .ok state)
    (h' : known lib data scope' trust' = .ok state') : state = state' := by
  obtain ⟨latest, signature, mark, clock, r, hdata, rfl⟩ := known_eq_ok.mp h
  obtain ⟨latest', signature', mark', clock', r', hdata', rfl⟩ := known_eq_ok.mp h'
  have same := Json.obj.inj (encode_injective r.canonical r'.canonical (hdata.symm.trans hdata'))
  have parts := same
  simp only [knownStateMembers, List.cons.injEq, Prod.mk.injEq, true_and, and_true] at parts
  obtain ⟨-, hlatest, hmark⟩ := parts
  have document : ∀ {m m' : ContinuityManifest} {s s' : ByteArray}, CheckpointOf lib scope trust m s →
      CheckpointOf lib scope' trust' m' s' → checkpointValue m s = checkpointValue m' s' → m = m' := by
    intro m m' s s' of of' h
    simp only [checkpointValue, checkpointJson, Json.obj.injEq, List.cons.injEq, Prod.mk.injEq, true_and] at h
    exact document_injective of.documented of'.documented h.1
  rw [same, document r.latestOf r'.latestOf hlatest]
  congr 1
  cases hm : mark with
  | none =>
    cases hm' : mark' with
    | none => rfl
    | some m' =>
      rw [hm, hm'] at hmark
      cases hmark
  | some m =>
    cases hm' : mark' with
    | none =>
      rw [hm, hm'] at hmark
      cases hmark
    | some m' =>
      rw [hm, hm'] at hmark
      exact congrArg some (document (r.markOf m hm) (r'.markOf m' hm') hmark)

/-- Layers do not matter to a known state. -/
theorem Recorded.purpose {scope' : ContinuityScope} (r : Recorded lib scope trust latest signature mark clock)
    (h : scope'.purpose = scope.purpose) : Recorded lib scope' trust latest signature mark clock :=
  { r with
    latestOf := { r.latestOf with purpose := r.latestOf.purpose.trans h.symm }
    markOf := fun m hm => { r.markOf m hm with purpose := (r.markOf m hm).purpose.trans h.symm } }

/-! ## Order -/

/-- `current` is not older than `latest` and the high water mark. -/
structure Follows (latest : ContinuityManifest) (high : Option ContinuityManifest)
    (current : ContinuityManifest) : Prop where
  observed : latest.observedAt.wall ≤ current.observedAt.wall
  issued : latest.issuedAt.wall ≤ current.issuedAt.wall
  tie : current.observedAt.wall = latest.observedAt.wall → current = latest
  pointer : ∀ h ∈ high, ∀ p ∈ h.pointerVersion, ∀ q ∈ current.pointerVersion, p ≤ q

theorem pointerBelow_eq_false {current : ContinuityManifest} {high : Option ContinuityManifest} :
    pointerBelow current high = false ↔ ∀ h ∈ high, ∀ p ∈ h.pointerVersion, ∀ q ∈ current.pointerVersion, p ≤ q := by
  unfold pointerBelow
  cases high with
  | none => simp
  | some h => cases hp : h.pointerVersion <;> cases current.pointerVersion <;> simp [hp]

theorem notOlder_eq_ok {high : Option ContinuityManifest}
    (d : Documented lib manifest manifest.observedAt manifest.issuedAt manifest.expiresAt)
    (dl : Documented lib latest latest.observedAt latest.issuedAt latest.expiresAt) :
    notOlder manifest latest high = .ok () ↔ Follows latest high manifest := by
  simp only [notOlder, bind_eq_ok, require_eq_ok, utc_eq_ok, d.observedUtc, d.issuedUtc, dl.observedUtc,
    dl.issuedUtc, Option.some.injEq, exists_eq_left', Bool.not_eq_true, pointerBelow_eq_false]
  constructor
  · rintro ⟨-, order, -, tie, pointer⟩
    rw [not_or, not_lt, not_lt] at order
    exact ⟨order.1, order.2, fun h => by_contra fun ne => tie ⟨h, ne⟩, pointer⟩
  · rintro ⟨observed, issued, tie, pointer⟩
    exact ⟨(), by omega, (), fun h => h.2 (tie h.1), pointer⟩

/-- The high water mark a package leaves behind. -/
def nextMark (manifest : ContinuityManifest) (signature : ByteArray)
    (mark : Option (ContinuityManifest × ByteArray)) : Option (ContinuityManifest × ByteArray) :=
  if manifest.pointerVersion ≠ none then some (manifest, signature) else mark

theorem highWaterMatches_next (h : ∀ m ∈ mark, m.1.pointerVersion ≠ none ∧
      m.1.observedAt.wall ≤ manifest.observedAt.wall ∧ m.1.issuedAt.wall ≤ manifest.issuedAt.wall) :
    HighWaterMatches manifest ((nextMark manifest signature mark).map Prod.fst) := by
  unfold nextMark
  split
  · rename_i pointer
    exact ⟨pointer, le_refl _, le_refl _, .inr rfl⟩
  · rename_i pointer
    rw [not_not] at pointer
    cases hm : mark with
    | none => exact pointer
    | some m =>
      obtain ⟨hp, observed, issued⟩ := h m hm
      exact ⟨hp, observed, issued, .inl pointer⟩

theorem highWaterValue_next (mark : Option (ContinuityManifest × ByteArray)) :
    (if manifest.pointerVersion ≠ none then checkpointValue manifest signature else highWaterValue mark) =
      highWaterValue (nextMark manifest signature mark) := by
  unfold nextMark
  split <;> rfl

end

/-! ## One verification -/

section

variable {package : ByteArray} {now : DateTime} {initializing : Bool}
  {verified : VerifiedContinuityPackage} {result : ByteArray}

/-- What an accepted verification found known: nothing, or a state that the package follows. -/
def Continues (lib : Library) (scope : ContinuityScope) (trust : List ContinuityTrustKey)
    (manifest : ContinuityManifest) (clock : DateTime) (mark : Option (ContinuityManifest × ByteArray))
    (initializing : Bool) : Option ByteArray → Prop
  | none => initializing = true ∧ mark = none
  | some data => initializing = false ∧ ∃ latest signature last,
      Recorded lib scope trust latest signature mark last ∧ data = knownStateBytes latest
        signature mark last ∧ last.wall ≤ clock.wall ∧ Follows latest (mark.map Prod.fst) manifest

theorem Continues.marks {mark : Option (ContinuityManifest × ByteArray)} {knownState : Option ByteArray}
    (h : Continues lib scope trust manifest clock mark initializing knownState) :
    (∀ m ∈ mark, CheckpointOf lib scope trust m.1 m.2) ∧ ∀ m ∈ mark, m.1.pointerVersion ≠ none ∧
      m.1.observedAt.wall ≤ manifest.observedAt.wall ∧ m.1.issuedAt.wall ≤ manifest.issuedAt.wall := by
  cases knownState with
  | none =>
    obtain ⟨-, rfl⟩ := h
    exact ⟨by simp, by simp⟩
  | some data =>
    obtain ⟨-, latest, signature, last, r, -, -, f⟩ := h
    refine ⟨r.markOf, fun m hm => ?_⟩
    have high : HighWaterMatches latest (mark.map Prod.fst) := r.high
    rw [hm] at high
    obtain ⟨pointer, observed, issued, -⟩ := high
    exact ⟨pointer, observed.trans f.observed, issued.trans f.issued⟩

/-- What an accepted package leaves behind is a known state again. -/
theorem Accepted.recorded {payload : ByteArray} {mark : Option (ContinuityManifest × ByteArray)}
    {knownState : Option ByteArray} (a : Accepted lib package scope trust now manifest payload signature)
    (hclock : now.toUtc = some clock)
    (c : Continues lib scope trust manifest clock mark initializing knownState) :
    Recorded lib scope trust manifest signature (nextMark manifest signature mark) clock := by
  obtain ⟨t, ht, fresh⟩ := a.fresh
  obtain rfl : t = clock := Option.some.inj (ht.symm.trans hclock)
  have latestOf : CheckpointOf lib scope trust manifest signature :=
    ⟨a.documented, by rw [a.scope], a.signatureSize, a.trusted⟩
  refine ⟨latestOf, ?_, DateTime.toUtc_toUtc hclock, fresh, highWaterMatches_next c.marks.2⟩
  unfold nextMark
  split
  · rintro _ ⟨⟩
    exact latestOf
  · exact c.marks.1

theorem highCheckpoint_eq_ok {knownState : Option ByteArray} {high : Json}
    (d : Documented lib manifest manifest.observedAt manifest.issuedAt manifest.expiresAt)
    (hclock : now.toUtc = some clock) :
    ¬ (initializing = true ∧ knownState.isSome = true) ∧
        highCheckpoint lib manifest
          (checkpointValue manifest signature) scope trust now initializing knownState = .ok high ↔
      ∃ mark, Continues lib scope trust manifest clock mark initializing knownState ∧
        high = highWaterValue (nextMark manifest signature mark) := by
  cases knownState with
  | none =>
    simp only [highCheckpoint, bind_eq_ok, require_eq_ok, pure_eq_ok]
    constructor
    · rintro ⟨-, -, init, rfl⟩
      exact ⟨none, ⟨init, rfl⟩, highWaterValue_next none⟩
    · rintro ⟨mark, ⟨init, hmark⟩, rfl⟩
      subst hmark
      exact ⟨by simp, (), init, highWaterValue_next none⟩
  | some data =>
    simp only [highCheckpoint, bind_eq_ok, require_eq_ok, utc_eq_ok, pure_eq_ok, known_eq_ok,
      Option.isSome_some, and_true, Bool.not_eq_true]
    constructor
    · rintro ⟨init, state, ⟨latest, latestSignature, mark, last, r, hdata, rfl⟩, clock', hclock',
        last', ⟨value, hvalue, hdate⟩, -, order, _, older, highWater, hhigh, rfl⟩
      obtain rfl : clock = clock' := Option.some.inj (hclock.symm.trans hclock')
      obtain rfl : .str last.isoformat = value := Except.ok.inj hvalue
      obtain rfl : last = last' := Except.ok.inj ((date_isoformat r.clockUtc).symm.trans hdate)
      obtain rfl : highWaterValue mark = highWater := Except.ok.inj hhigh
      exact ⟨mark, ⟨init, latest, latestSignature, last, r, hdata, order,
        (notOlder_eq_ok d r.latestOf.documented).mp older⟩, highWaterValue_next _⟩
    · rintro ⟨mark, ⟨init, latest, latestSignature, last, r, hdata, order, follows⟩, rfl⟩
      exact ⟨init, _, ⟨latest, latestSignature, mark, last, r, hdata, rfl⟩, clock, hclock, last,
        ⟨_, rfl, date_isoformat r.clockUtc⟩, (), order, (), (notOlder_eq_ok d r.latestOf.documented).mpr follows, _, rfl,
        highWaterValue_next _⟩

/-- A verification is accepted just where the package is, and follows what is known; it records
the package, and the high water mark it leaves behind. -/
theorem verifyContinuityWithKnownState_eq_ok {knownState : Option ByteArray} :
    verifyContinuityWithKnownState lib package scope trust now knownState initializing = .ok (verified, result) ↔
      ∃ manifest payload signature clock mark, Accepted lib package scope trust now manifest payload signature ∧
        now.toUtc = some clock ∧ Continues lib scope trust manifest clock mark initializing knownState ∧
        verified = ⟨manifest, payload, (checkpointValue manifest signature).encode⟩ ∧
        result = knownStateBytes manifest signature (nextMark manifest signature mark) clock := by
  simp only [verifyContinuityWithKnownState, bind_eq_ok, require_eq_ok, getOr_eq_ok, utc_eq_ok,
    canonical_eq_ok, verifyContinuityPackage_eq_ok, pure_eq_ok, Prod.mk.injEq]
  constructor
  · rintro ⟨-, -, -, once, verified, ⟨manifest, payload, signature, a, rfl⟩, text, read, value,
      loaded, high, hhigh, clock, hclock, bytes, ⟨-, hbytes⟩, -, -, rfl, hresult⟩
    have canon : (checkpointValue manifest signature).Canonical := checkpoint_canonical a.documented.canonical signature
    obtain rfl : (checkpointValue manifest signature).dumps = text :=
      Option.some.inj ((fromUTF8?_encode _).symm.trans read)
    obtain rfl : checkpointValue manifest signature = value :=
      Option.some.inj ((loads_dumps lib.floatRepr canon).symm.trans loaded)
    obtain ⟨mark, c, hhigh'⟩ := (highCheckpoint_eq_ok a.documented hclock).mp ⟨once, hhigh⟩
    refine ⟨manifest, payload, signature, clock, mark, a, hclock, c, rfl, ?_⟩
    rw [← hresult, hbytes, hhigh']
    rfl
  · rintro ⟨manifest, payload, signature, clock, mark, a, hclock, c, rfl, hresult⟩
    have r := a.recorded hclock c
    have canon : (checkpointValue manifest signature).Canonical := checkpoint_canonical a.documented.canonical signature
    obtain ⟨once, hhigh⟩ := (highCheckpoint_eq_ok a.documented hclock).mpr ⟨mark, c, rfl⟩
    refine ⟨_, scopeDocument_eq_ok.mpr ⟨a.scope ▸ a.documented.scope, rfl⟩, (), once, _,
      ⟨manifest, payload, signature, a, rfl⟩, _, fromUTF8?_encode _, _, loads_dumps lib.floatRepr canon, _, hhigh, clock,
      hclock, result, ⟨r.canonical.finite, hresult⟩, (), ?_, rfl, rfl⟩
    rw [hresult, knownStateBytes, size_encode]
    exact r.size_le

end

/-! ## Runs -/

/-- Nothing of `later` goes back behind `earlier`. -/
structure NotBehind (earlier later : ContinuityManifest) : Prop where
  observed : earlier.observedAt.wall ≤ later.observedAt.wall
  issued : earlier.issuedAt.wall ≤ later.issuedAt.wall
  tie : earlier.observedAt.wall = later.observedAt.wall → earlier = later
  pointer : ∀ p q, earlier.pointerVersion = some p → later.pointerVersion = some q → p ≤ q

/-- The known state keeps track of a package that was accepted: of its times in the latest
manifest, of its pointer in the high water mark. -/
def Tracks (lib : Library) (knownState : Option ByteArray) (verified : VerifiedContinuityPackage) : Prop :=
  ∃ data scope trust state, knownState = some data ∧ known lib data scope trust = .ok state ∧
    NotBehind verified.manifest state.latest ∧
    ∀ p, verified.manifest.pointerVersion = some p →
      ∃ high r, state.highWater = some high ∧ high.pointerVersion = some r ∧ p ≤ r

theorem verifier_exec {knownState knownState' : Option ByteArray} {v : Verification}
    {verified : VerifiedContinuityPackage} (h : (verifier lib).exec knownState v = .ok (knownState', verified)) :
    ∃ result, knownState' = some result ∧ verifyContinuityWithKnownState lib v.package
      v.expectedScope v.trust v.now knownState v.initializing = .ok (verified, result) := by
  simp only [verifier, bind_eq_ok, pure_eq_ok, Prod.mk.injEq] at h
  obtain ⟨⟨verified', result⟩, accepted, rfl, rfl⟩ := h
  exact ⟨result, rfl, accepted⟩

/-- The state that an accepted verification leaves behind is accepted, for any layers. -/
theorem known_result {package result : ByteArray} {now : DateTime} {knownState : Option ByteArray}
    {initializing : Bool} {verified : VerifiedContinuityPackage}
    (h : verifyContinuityWithKnownState lib package scope trust now knownState initializing = .ok (verified, result))
    {scope' : ContinuityScope} (hs : scope'.purpose = scope.purpose) :
    ∃ manifest signature clock mark, verified.manifest = manifest ∧ now.toUtc = some clock ∧
      Continues lib scope trust manifest clock mark initializing knownState ∧
      Recorded lib scope' trust manifest signature (nextMark manifest signature mark) clock ∧
      result = knownStateBytes manifest signature (nextMark manifest signature mark) clock ∧
      known lib result scope' trust = .ok ⟨knownStateMembers manifest signature (nextMark manifest signature mark) clock,
        manifest, (nextMark manifest signature mark).map Prod.fst⟩ := by
  obtain ⟨manifest, payload, signature, clock, mark, a, hclock, c, rfl, hresult⟩ :=
    verifyContinuityWithKnownState_eq_ok.mp h
  have r := (a.recorded hclock c).purpose hs
  exact ⟨manifest, signature, clock, mark, rfl, hclock, c, r, hresult,
    known_eq_ok.mpr ⟨_, _, _, _, r, hresult, rfl⟩⟩

theorem tracks_accepted {knownState knownState' : Option ByteArray} {v : Verification}
    {verified : VerifiedContinuityPackage} (h : (verifier lib).exec knownState v = .ok (knownState', verified)) :
    Tracks lib knownState' verified := by
  obtain ⟨result, rfl, accepted⟩ := verifier_exec h
  obtain ⟨manifest, signature, clock, mark, rfl, -, -, -, -, hknown⟩ := known_result accepted rfl
  refine ⟨result, _, _, _, rfl, hknown, ⟨le_refl _, le_refl _, fun _ => rfl, ?_⟩, ?_⟩
  · intro p q hp hq
    exact (Option.some.inj (hp.symm.trans hq)).le
  · intro p hp
    have pointer : verified.manifest.pointerVersion ≠ none := by simp [hp]
    refine ⟨verified.manifest, p, ?_, hp, le_refl p⟩
    rw [nextMark, if_pos pointer]
    rfl

/-- An accepted package is not behind one the state keeps track of, and the next state keeps
track of that one too. -/
theorem Tracks.accepted {knownState knownState' : Option ByteArray} {v : Verification}
    {earlier verified : VerifiedContinuityPackage} (t : Tracks lib knownState earlier)
    (h : (verifier lib).exec knownState v = .ok (knownState', verified)) :
    Tracks lib knownState' earlier ∧ NotBehind earlier.manifest verified.manifest := by
  obtain ⟨result, rfl, accepted⟩ := verifier_exec h
  obtain ⟨manifest, signature, clock, mark, rfl, -, c, -, -, hknown⟩ := known_result accepted rfl
  obtain ⟨data, scope, trust, state, rfl, hstate, behind, mark_le⟩ := t
  obtain ⟨-, latest, latestSignature, last, r, hdata, -, follows⟩ := c
  obtain rfl := known_unique hstate (known_eq_ok.mpr ⟨_, _, _, _, r, hdata, rfl⟩)
  dsimp only at behind mark_le
  have notBehind : NotBehind earlier.manifest verified.manifest := by
    refine ⟨behind.observed.trans follows.observed, behind.issued.trans follows.issued, ?_, ?_⟩
    · intro tie
      have between := behind.observed
      have after := follows.observed
      rw [behind.tie (by omega), follows.tie (by omega)]
    · intro p q hp hq
      obtain ⟨high, r, hhigh, hr, hle⟩ := mark_le p hp
      exact hle.trans (follows.pointer high hhigh r hr q hq)
  refine ⟨⟨result, _, _, _, rfl, hknown, notBehind, ?_⟩, notBehind⟩
  intro p hp
  dsimp only
  unfold nextMark
  split
  · rename_i pointer
    obtain ⟨q, hq⟩ := Option.ne_none_iff_exists'.mp pointer
    exact ⟨verified.manifest, q, rfl, hq, notBehind.pointer p q hp hq⟩
  · exact mark_le p hp

/-- In any run of the verifier, whatever packages it is given, no accepted package goes back
behind an earlier one; and the state an accepted one leaves behind is accepted under the same
trust and purpose, so that the next package is judged by its own signature, its time and its
order alone. -/
theorem verifier_history (lib : Library) (knownState : Option ByteArray) (run : List Verification) :
    (∀ verified ∈ (verifier lib).answers knownState run, verified.manifest.toUtc = some verified.manifest) ∧
    ((verifier lib).answers knownState run).Pairwise (fun earlier later =>
      NotBehind earlier.manifest later.manifest) ∧
    ∀ package scope trust now knownState initializing verified result,
      verifyContinuityWithKnownState lib package scope trust now knownState initializing = .ok (verified, result) →
      ∀ scope' : ContinuityScope, scope'.purpose = scope.purpose →
        ∃ state, known lib result scope' trust = .ok state ∧ state.latest = verified.manifest ∧
          ∀ package' now' verified' clock clock',
            verifyContinuityPackage lib package' scope' trust now' = .ok verified' →
            now.toUtc = some clock → now'.toUtc = some clock' → clock.wall ≤ clock'.wall →
            notOlder verified'.manifest state.latest state.highWater = .ok () →
            ∃ result', verifyContinuityWithKnownState lib package' scope' trust now'
              (some result) false = .ok (verified', result') := by
  refine ⟨?_, ?_, ?_⟩
  · refine Machine.answers_forall (fun s v s' verified h => ?_) knownState run
    obtain ⟨result, -, accepted⟩ := verifier_exec h
    obtain ⟨manifest, payload, signature, clock, mark, a, -, -, rfl, -⟩ :=
      verifyContinuityWithKnownState_eq_ok.mp accepted
    exact a.documented.toUtc
  · exact Machine.answers_pairwise (K := Tracks lib) (fun _ _ _ _ _ t h => t.accepted h)
      (fun _ _ _ _ h => tracks_accepted h) knownState run
  · intro package scope trust now knownState initializing verified result h scope' hs
    obtain ⟨manifest, signature, clock, mark, rfl, hclock, -, r, hresult, hknown⟩ := known_result h hs
    refine ⟨_, hknown, rfl, ?_⟩
    intro package' now' verified' clock₁ clock' hverify hclock₁ hclock' order older
    obtain rfl : clock = clock₁ := Option.some.inj (hclock.symm.trans hclock₁)
    obtain ⟨manifest', payload', signature', a', rfl⟩ := verifyContinuityPackage_eq_ok.mp hverify
    have follows := (notOlder_eq_ok a'.documented r.latestOf.documented).mp older
    exact ⟨_, verifyContinuityWithKnownState_eq_ok.mpr ⟨manifest', payload', signature', clock', _, a', hclock',
      ⟨rfl, _, _, clock, r, hresult, order, follows⟩, rfl, rfl⟩⟩

end Maru.Scheduling

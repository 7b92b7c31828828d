import Maru.Scheduling.ContinuityProtocol

/-!
# Reading a manifest back

Every reader takes back what its writer wrote, and accepts nothing else: the fields, the
scope (`decodeScope_json`), the manifest (`decodeManifest_document`), whose document is the
value it was read from (`decodeManifest_eq_ok`).
-/

namespace Maru.Scheduling

open Calendar

variable {lib : Library}

/-! ## Fields -/

theorem utc_eq_ok {value u : DateTime} : utc value = .ok u ↔ value.toUtc = some u := getOr_eq_ok

theorem string_eq_ok {value : Json} {s : String} : string value = .ok s ↔ value = .str s := by
  cases value <;> simp [string, pure, Except.pure, throw, throwThe, MonadExceptOf.throw]

@[simp] theorem string_str (s : String) : string (.str s) = .ok s := rfl

@[simp] theorem array_arr (values : List Json) : array (.arr values) = .ok values := rfl

theorem strings_map (l : List String) : strings (l.map .str) = .ok l := by
  induction l with
  | nil => rfl
  | cons s l ih => simp [strings, string, ih, bind, Except.bind, pure, Except.pure]

theorem uuid_text {u : Uuid} (h : u.val ≠ 0) : uuid (.str u.text) = .ok u := by
  simp [uuid, Uuid.ofText?_text, getOr, require, h, bind, Except.bind, pure, Except.pure]

theorem optionalUuid_optionalText {value : Option Uuid} (h : value.all (·.val ≠ 0)) :
    optionalUuid (optionalText value) = .ok value := by
  cases value with
  | none => rfl
  | some u => simp [optionalText, optionalUuid, uuid_text (of_decide_eq_true h), bind, Except.bind, pure, Except.pure]

/-- A UUID's text is read as no other UUID. -/
theorem optionalUuid_optionalText_eq_ok {value result : Option Uuid}
    (h : optionalUuid (optionalText value) = .ok result) : result = value := by
  cases value with
  | none =>
    cases h
    rfl
  | some u =>
    simp only [optionalText, Option.map_some, Option.getD_some, optionalUuid, uuid,
      Uuid.ofText?_text, bind_eq_ok, getOr_eq_ok, require_eq_ok, pure_eq_ok, Option.some.injEq] at h
    obtain ⟨r, ⟨_, rfl, -, -, rfl⟩, rfl⟩ := h
    rfl

theorem optionalInt_map (value : Option Int) : optionalInt ((value.map Json.int).getD .null) = .ok value := by
  cases value <;> rfl

theorem length_isoformat_toUtc {d u : DateTime} (h : d.toUtc = some u) : u.isoformat.length ≤ 32 := by
  rw [DateTime.toUtc_eq_utc h]
  exact length_isoformat_utc ..

/-- The text of a date-time in UTC is read as that date-time. -/
theorem date_isoformat {d u : DateTime} (h : d.toUtc = some u) : date (.str u.isoformat) = .ok u := by
  have short : u.isoformat.length ≤ maxDateText := (length_isoformat_toUtc h).trans (by decide)
  simp [date, require, getOr, short, fromIsoformat_isoformat, utc, DateTime.toUtc_toUtc h, bind,
    Except.bind, pure, Except.pure]

theorem date_eq_ok {value : Json} {u : DateTime} (h : date value = .ok u) :
    u.toUtc = some u ∧ value = .str u.isoformat := by
  cases value with
  | str s =>
    simp only [date, bind_eq_ok, require_eq_ok, getOr_eq_ok, utc_eq_ok, pure_eq_ok] at h
    obtain ⟨-, -, parsed, -, result, hu, -, text, rfl⟩ := h
    exact ⟨DateTime.toUtc_toUtc hu, by rw [text]⟩
  | null | bool | int | float | arr | obj => cases h

theorem canonical_eq_ok {value : Json} {data : ByteArray} :
    canonical value = .ok data ↔ value.finite ∧ data = value.encode := by
  simp only [canonical, bind_eq_ok, require_eq_ok, pure_eq_ok]
  exact ⟨fun ⟨_, finite, h⟩ => ⟨finite, h.symm⟩, fun ⟨finite, h⟩ => ⟨(), finite, h.symm⟩⟩

theorem canonical_of_canonical {value : Json} (h : value.Canonical) :
    canonical value = .ok value.encode := canonical_eq_ok.mpr ⟨h.finite, rfl⟩

theorem objectWith_eq_ok {keys : List String} {value : Json} {members : List (String × Json)} :
    objectWith keys value = .ok members ↔ value = .obj members ∧ members.map Prod.fst = keys := by
  cases value with
  | obj ms =>
    simp only [objectWith, bind_eq_ok, require_eq_ok, pure_eq_ok, Json.obj.injEq]
    constructor
    · rintro ⟨-, h, rfl⟩
      exact ⟨rfl, h⟩
    · rintro ⟨rfl, h⟩
      exact ⟨(), h, rfl⟩
  | null | bool | int | float | str | arr => simp [objectWith, throw_ne_ok]

/-- What is accepted is the canonical text of an object with the expected keys. -/
theorem json_eq_ok {floatRepr : String → String} {data : ByteArray} {keys : List String} {maximum : Nat}
    {members : List (String × Json)} (h : json floatRepr data keys maximum = .ok members) :
    members.map Prod.fst = keys ∧ data = (Json.obj members).encode ∧
      Json.loads floatRepr (Json.obj members).dumps = some (.obj members) := by
  simp only [json, bind_eq_ok, require_eq_ok, getOr_eq_ok, objectWith_eq_ok, canonical_eq_ok,
    pure_eq_ok] at h
  obtain ⟨-, -, text, read, result, loaded, ms, ⟨hresult, keys⟩, again, ⟨-, bytes⟩, -, same, hms⟩ := h
  subst hms hresult
  have hdata : data = (Json.obj ms).encode := by rw [← same, bytes]
  rw [hdata, Json.fromUTF8?_encode] at read
  exact ⟨keys, hdata, Option.some.inj read ▸ loaded⟩

/-- The bytes of a canonical object are read as just its members. -/
theorem members_of_json {floatRepr : String → String} {data : ByteArray} {keys : List String} {maximum : Nat}
    {members members' : List (String × Json)} (h : json floatRepr data keys maximum = .ok members)
    (canon : (Json.obj members').Canonical) (hdata : data = (Json.obj members').encode) : members = members' := by
  obtain ⟨-, hbytes, loaded⟩ := json_eq_ok h
  have text : (Json.obj members).dumps = (Json.obj members').dumps :=
    congrArg String.ofList (Json.encode_eq_iff.mp (hbytes.symm.trans hdata))
  rw [text, Json.loads_dumps floatRepr canon] at loaded
  exact (Json.obj.inj (Option.some.inj loaded)).symm

/-- The canonical text of an object is read back. -/
theorem json_dumps (floatRepr : String → String) {members : List (String × Json)} {keys : List String}
    {maximum : Nat} (h : (Json.obj members).Canonical) (hk : members.map Prod.fst = keys)
    (hs : Json.size (Json.obj members).chars ≤ maximum) :
    json floatRepr (Json.obj members).encode keys maximum = .ok members := by
  have nonempty : 0 < (Json.obj members).encode.size := by
    obtain ⟨c, cs, he, -⟩ := Json.chars_head _ h
    have := c.utf8Size_pos
    rw [Json.size_encode, he, Json.size_cons]
    omega
  have sized : 0 < (Json.obj members).encode.size ∧ (Json.obj members).encode.size ≤ maximum :=
    ⟨nonempty, by rwa [Json.size_encode]⟩
  simp only [json, bind_eq_ok, require_eq_ok, getOr_eq_ok, objectWith_eq_ok, pure_eq_ok]
  exact ⟨(), sized, _, Json.fromUTF8?_encode _, _, Json.loads_dumps floatRepr h, _, ⟨rfl, hk⟩, _,
    canonical_of_canonical h, (), rfl, rfl⟩

theorem base64_eq_ok {value : Json} {maximum : Nat} {data : ByteArray} :
    base64 value maximum = .ok data ↔ value = .str (Base64.b64encode data) ∧ data.size ≤ maximum := by
  simp only [base64, bind_eq_ok, string_eq_ok, require_eq_ok, getOr_eq_ok, pure_eq_ok]
  constructor
  · rintro ⟨text, rfl, -, -, decoded, -, -, ⟨size, again⟩, rfl⟩
    exact ⟨by rw [again], size⟩
  · rintro ⟨rfl, size⟩
    refine ⟨_, rfl, (), ?_, data, Base64.b64decode_b64encode data, (), ⟨size, rfl⟩, rfl⟩
    rw [Base64.length_b64encode]
    omega

/-! ## The manifest -/

theorem decodeScope_json {scope : ContinuityScope} (h : scope.Valid) : decodeScope scope.json = .ok scope := by
  obtain ⟨organization, edition, -, -, -, actor, target⟩ := h
  simp only [decodeScope, ContinuityScope.json, bind_eq_ok, objectWith_eq_ok, pure_eq_ok]
  exact ⟨_, ⟨rfl, rfl⟩, _, ⟨_, ⟨_, rfl, rfl⟩, strings_map _⟩, _, ⟨_, rfl, uuid_text organization⟩, _,
    ⟨_, rfl, uuid_text edition⟩, _, ⟨_, rfl, rfl⟩, _, ⟨_, rfl, optionalUuid_optionalText actor⟩, _, ⟨_, rfl, rfl⟩, _,
    ⟨_, rfl, optionalUuid_optionalText target⟩, rfl⟩

theorem scopeDocument_eq_ok {scope : ContinuityScope} {document : Json} :
    scopeDocument scope = .ok document ↔ scope.Valid ∧ document = scope.json := by
  simp only [scopeDocument, bind_eq_ok, require_eq_ok, pure_eq_ok]
  exact ⟨fun ⟨_, valid, h⟩ => ⟨valid, h.symm⟩, fun ⟨valid, h⟩ => ⟨(), valid, h.symm⟩⟩

/-- What `manifestDocument` accepts, with its times in UTC. -/
structure Documented (lib : Library) (manifest : ContinuityManifest) (observed issued expires : DateTime) : Prop where
  scope : manifest.scope.Valid
  observedUtc : manifest.observedAt.toUtc = some observed
  issuedUtc : manifest.issuedAt.toUtc = some issued
  expiresUtc : manifest.expiresAt.toUtc = some expires
  times : validTimes observed issued expires
  keyId : IsKeyId manifest.keyId
  digest : IsDigest manifest.payloadSha256
  zone : 1 ≤ manifest.zoneName.length ∧ manifest.zoneName.length ≤ maxZoneText
  zoneInfo : lib.zoneInfo manifest.zoneName
  release : ValidReleaseState manifest.scope.audience manifest.releaseState manifest.pointerVersion manifest.releaseId

theorem manifestDocument_eq_ok {manifest : ContinuityManifest} {document : Json} :
    manifestDocument lib manifest = .ok document ↔ ∃ observed issued expires,
      Documented lib manifest observed issued expires ∧
        document = manifest.json manifest.scope.json observed issued expires := by
  simp only [manifestDocument, scopeDocument_eq_ok, bind_eq_ok, require_eq_ok, utc_eq_ok, pure_eq_ok]
  constructor
  · rintro ⟨-, ⟨scope, rfl⟩, observed, hobserved, issued, hissued, expires, hexpires, -, times,
      -, keyId, -, digest, -, zone, -, zoneInfo, -, release, rfl⟩
    exact ⟨observed, issued, expires,
      ⟨scope, hobserved, hissued, hexpires, times, keyId, digest, zone, zoneInfo, release⟩, rfl⟩
  · rintro ⟨observed, issued, expires, d, rfl⟩
    exact ⟨_, ⟨d.scope, rfl⟩, observed, d.observedUtc, issued, d.issuedUtc, expires, d.expiresUtc,
      (), d.times, (), d.keyId, (), d.digest, (), d.zone, (), d.zoneInfo, (), d.release, rfl⟩

theorem ValidReleaseState.release_ne {audience state : String} {pointer : Option Int} {release : Option Uuid}
    (h : ValidReleaseState audience state pointer release) : release.all (·.val ≠ 0) := by
  obtain ⟨-, h⟩ := h
  split_ifs at h
  · simp [h.2.2]
  · simp [h.2.2.2]
  · simp [h.2.2.2]
  · exact h.2.2.2.2

theorem ValidReleaseState.pointer_le {audience state : String} {pointer : Option Int} {release : Option Uuid}
    (h : ValidReleaseState audience state pointer release) : ∀ p ∈ pointer, 0 ≤ p ∧ p ≤ 2 ^ 63 - 1 := by
  obtain ⟨-, h⟩ := h
  split_ifs at h
  · simp [h.2.1]
  · exact h.2.1
  · exact h.2.1
  · exact h.2.1

/-- A manifest with its times in UTC. -/
def ContinuityManifest.withTimes (manifest : ContinuityManifest) (observedAt issuedAt expiresAt : DateTime) :
    ContinuityManifest := { manifest with observedAt, issuedAt, expiresAt }

/-- A manifest in UTC, where its times are aware and in range. -/
def ContinuityManifest.toUtc (manifest : ContinuityManifest) : Option ContinuityManifest := do
  let observed ← manifest.observedAt.toUtc
  let issued ← manifest.issuedAt.toUtc
  let expires ← manifest.expiresAt.toUtc
  return manifest.withTimes observed issued expires

section

variable {manifest : ContinuityManifest} {observed issued expires : DateTime}

theorem Documented.toUtc (d : Documented lib manifest observed issued expires) :
    manifest.toUtc = some (manifest.withTimes observed issued expires) := by
  simp only [ContinuityManifest.toUtc, d.observedUtc, d.issuedUtc, d.expiresUtc]
  rfl

/-- Converting to UTC keeps a manifest's document. -/
theorem Documented.withTimes (d : Documented lib manifest observed issued expires) :
    Documented lib (manifest.withTimes observed issued expires) observed issued expires :=
  { d with
    observedUtc := DateTime.toUtc_toUtc d.observedUtc
    issuedUtc := DateTime.toUtc_toUtc d.issuedUtc
    expiresUtc := DateTime.toUtc_toUtc d.expiresUtc }

/-- A manifest's document is read back as the manifest in UTC. -/
theorem decodeManifest_document (d : Documented lib manifest observed issued expires) :
    decodeManifest lib (manifest.json manifest.scope.json observed issued expires) =
      .ok (manifest.withTimes observed issued expires) := by
  have again : manifestDocument lib (manifest.withTimes observed issued expires) =
      .ok (manifest.json manifest.scope.json observed issued expires) :=
    manifestDocument_eq_ok.mpr ⟨observed, issued, expires, d.withTimes, rfl⟩
  simp only [decodeManifest, bind_eq_ok, objectWith_eq_ok, require_eq_ok, pure_eq_ok]
  exact ⟨_, ⟨rfl, rfl⟩, _, rfl, (), rfl, _, ⟨_, rfl, decodeScope_json d.scope⟩, _, ⟨_, rfl, rfl⟩,
    _, ⟨_, rfl, date_isoformat d.observedUtc⟩, _, ⟨_, rfl, date_isoformat d.issuedUtc⟩,
    _, ⟨_, rfl, date_isoformat d.expiresUtc⟩, _, ⟨_, rfl, rfl⟩, _, ⟨_, rfl, rfl⟩, _, ⟨_, rfl, optionalInt_map _⟩,
    _, ⟨_, rfl, optionalUuid_optionalText d.release.release_ne⟩, _, ⟨_, rfl, rfl⟩, _, again, (), rfl, rfl⟩

/-- A manifest that was read is in UTC, and its document is the value it was read from. -/
theorem decodeManifest_eq_ok {value : Json} (h : decodeManifest lib value = .ok manifest) :
    Documented lib manifest manifest.observedAt manifest.issuedAt manifest.expiresAt ∧
      value = manifest.json manifest.scope.json manifest.observedAt manifest.issuedAt manifest.expiresAt := by
  simp only [decodeManifest, bind_eq_ok, require_eq_ok, pure_eq_ok] at h
  obtain ⟨_, -, _, -, -, -, scope, -, keyId, -, observedAt, ⟨_, -, hobserved⟩, issuedAt, ⟨_, -, hissued⟩, expiresAt,
    ⟨_, -, hexpires⟩, zoneName, -, releaseState, -, pointerVersion, -, releaseId, -, payloadSha256, -, document, hdoc,
    -, rfl, rfl⟩ := h
  obtain ⟨observed, issued, expires, d, rfl⟩ := manifestDocument_eq_ok.mp hdoc
  obtain rfl : observed = observedAt := Option.some.inj (d.observedUtc.symm.trans (date_eq_ok hobserved).1)
  obtain rfl : issued = issuedAt := Option.some.inj (d.issuedUtc.symm.trans (date_eq_ok hissued).1)
  obtain rfl : expires = expiresAt := Option.some.inj (d.expiresUtc.symm.trans (date_eq_ok hexpires).1)
  exact ⟨d, rfl⟩

end

end Maru.Scheduling

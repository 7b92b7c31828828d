import Maru.Scheduling.ContinuityCodec

/-!
# Packages: what is signed verifies, and has one encoding

A document and a checkpoint stay within the limits of their readers (`size_document_le`,
`size_checkpoint_le`), a package within those of the verifier (`size_envelope_le`).
`signContinuityPackage_eq_ok` and `verifyContinuityPackage_eq_ok` say what the two
functions accept; the round trip and the uniqueness of the encoding follow from them.
-/

namespace Maru.Scheduling

open Calendar Json

variable {lib : Library}

/-! ## Documents -/

/-- The document of a manifest whose times are in UTC. -/
def ContinuityManifest.document (manifest : ContinuityManifest) : Json :=
  manifest.json manifest.scope.json manifest.observedAt manifest.issuedAt manifest.expiresAt

theorem optionalText_canonical (value : Option Uuid) : (optionalText value).Canonical := by
  cases value <;> simp [optionalText, Canonical]

theorem strings_canonical (l : List String) : CanonicalElems (l.map .str) := by
  induction l with
  | nil => trivial
  | cons s l ih => exact ⟨trivial, ih⟩

theorem scope_canonical (scope : ContinuityScope) : scope.json.Canonical := by
  simp only [ContinuityScope.json, Canonical, CanonicalMembers, optionalText_canonical,
    strings_canonical, true_and, and_true]
  show scopeKeys.Pairwise (· < ·)
  decide

theorem pointer_canonical {audience state : String} {pointer : Option Int} {release : Option Uuid}
    (h : ValidReleaseState audience state pointer release) : ((pointer.map Json.int).getD .null).Canonical := by
  cases pointer with
  | none => exact trivial
  | some p =>
    have bound := h.pointer_le p rfl
    have : p.natAbs < 10 ^ 19 := by omega
    exact (length_decimal_le (by omega) this).trans (by decide)

section

variable {manifest : ContinuityManifest} {observed issued expires : DateTime}

theorem Documented.canonical (d : Documented lib manifest observed issued expires) :
    (manifest.json manifest.scope.json observed issued expires).Canonical := by
  have pointer := pointer_canonical d.release
  simp only [ContinuityManifest.json, Canonical, CanonicalMembers, optionalText_canonical,
    scope_canonical, pointer, true_and, and_true]
  show manifestKeys.Pairwise (· < ·)
  decide

theorem size_optionalText_le (value : Option Uuid) : size (optionalText value).chars ≤ 38 := by
  cases value with
  | none => decide
  | some u => exact (size_quote_uuid u).le

theorem size_scope_le {scope : ContinuityScope} (h : scope.Valid) : size scope.json.chars ≤ 340 := by
  obtain ⟨-, -, ⟨few, -, known⟩, valid, -, -⟩ := h
  have names : size (quote "actor_id") = 10 ∧ size (quote "audience") = 10 ∧ size (quote "edition_id") = 12 ∧
      size (quote "kind") = 6 ∧ size (quote "layers") = 8 ∧ size (quote "organization_id") = 17 ∧
      size (quote "target_id") = 11 := by decide
  have layer : ∀ l ∈ layerNames, size (quote l) ≤ 15 := by decide
  have layers := size_strings_le scope.layers fun l hl => layer l (known l hl)
  have audience : size (quote scope.audience) ≤ 18 ∧ size (quote scope.kind) ≤ 12 := by
    split_ifs at valid with ha ha ha
    · rw [ha, valid.1]
      decide
    · rw [ha, valid.1]
      decide
    · rw [ha]
      rcases valid.1 with hk | hk | hk <;> rw [hk] <;> decide
  have actor := size_optionalText_le scope.actorId
  have target := size_optionalText_le scope.targetId
  have : layerNames.length = 4 := rfl
  simp only [ContinuityScope.json, size_obj_cons, size_membersChars_cons, size_membersChars_nil,
    size_str, size_quote_uuid]
  omega

theorem size_date_le {d u : DateTime} (h : d.toUtc = some u) : size (quote u.isoformat) ≤ 194 := by
  have := size_quote_le u.isoformat
  have := length_isoformat_toUtc h
  omega

theorem size_document_le (d : Documented lib manifest observed issued expires) :
    size (manifest.json manifest.scope.json observed issued expires).chars ≤ 2600 := by
  have names : size (quote "contract") = 10 ∧ size (quote "expires_at") = 12 ∧ size (quote "issued_at") = 11 ∧
      size (quote "key_id") = 8 ∧ size (quote "observed_at") = 13 ∧ size (quote "payload_sha256") = 16 ∧
      size (quote "pointer_version") = 17 ∧ size (quote "release_id") = 12 ∧ size (quote "release_state") = 15 ∧
      size (quote "scope") = 7 ∧ size (quote "zone_name") = 11 ∧ size (quote continuityContract) ≤ 40 := by decide
  have scope := size_scope_le d.scope
  have observed := size_date_le d.observedUtc
  have issued := size_date_le d.issuedUtc
  have expires := size_date_le d.expiresUtc
  have keyId := size_quote_le manifest.keyId
  have digest := size_quote_le manifest.payloadSha256
  have zone := size_quote_le manifest.zoneName
  have release := size_optionalText_le manifest.releaseId
  have states : ∀ s ∈ releaseStates, size (quote s) ≤ 13 := by decide
  have state := states _ d.release.1
  have pointer : size ((manifest.pointerVersion.map Json.int).getD .null).chars ≤ 20 := by
    cases h : manifest.pointerVersion with
    | none => decide
    | some p =>
      have bound := d.release.pointer_le p h
      exact size_int_le (by omega) (by omega)
  have := d.keyId.2.1
  have := d.digest.1
  have := d.zone.2
  have : maxZoneText = 100 := rfl
  simp only [ContinuityManifest.json, size_obj_cons, size_membersChars_cons, size_membersChars_nil, size_str]
  omega

theorem envelope_canonical {document : Json} (h : document.Canonical)
    (payload signature : ByteArray) : (envelope document payload signature).Canonical := by
  simp only [envelope, Canonical, CanonicalMembers, h, true_and]
  show packageKeys.Pairwise (· < ·)
  decide

theorem checkpoint_canonical {document : Json} (h : document.Canonical) (signature : ByteArray) :
    (checkpointJson document (.str (Base64.b64encode signature))).Canonical := by
  simp only [checkpointJson, Canonical, CanonicalMembers, h, true_and]
  show checkpointKeys.Pairwise (· < ·)
  decide

theorem size_envelope_le {document : Json} (h : size document.chars ≤ 2600) {payload signature : ByteArray}
    (hp : payload.size ≤ maxContinuityPayloadBytes) (hs : signature.size ≤ ed25519SignatureBytes) :
    size (envelope document payload signature).chars ≤ maxContinuityPackageBytes := by
  have names : size (quote "manifest") = 10 ∧ size (quote "payload") = 9 ∧ size (quote "signature") = 11 := by decide
  unfold maxContinuityPayloadBytes at hp
  unfold ed25519SignatureBytes at hs
  simp only [envelope, size_obj_cons, size_membersChars_cons, size_membersChars_nil, size_str,
    size_quote_b64encode, maxContinuityPackageBytes]
  omega

theorem size_checkpoint_le {document : Json} (h : size document.chars ≤ 2600)
    {signature : ByteArray} (hs : signature.size ≤ ed25519SignatureBytes) :
    size (checkpointJson document (.str (Base64.b64encode signature))).chars ≤ 2800 := by
  have names : size (quote "manifest") = 10 ∧ size (quote "signature") = 11 := by decide
  unfold ed25519SignatureBytes at hs
  simp only [checkpointJson, size_obj_cons, size_membersChars_cons, size_membersChars_nil, size_str,
    size_quote_b64encode]
  omega

end

/-! ## Signatures -/

/-- The keys of `trust` are well formed, and one of them is the issuer's `publicKey`, whose
interval the manifest keeps. -/
structure Trusts (trust : List ContinuityTrustKey) (manifest : ContinuityManifest) (publicKey : ByteArray) : Prop where
  count : 1 ≤ trust.length ∧ trust.length ≤ maxContinuityTrustKeys
  checked : ∀ key ∈ trust, key.check = .ok ()
  distinct : (trust.map ContinuityTrustKey.identity).Nodup
  issuer : ∃ key ∈ trust, key.identity = manifest.identity ∧ key.publicKey = publicKey ∧
    ∃ notBefore notAfter issued expires, key.notBefore.toUtc = some notBefore ∧ key.notAfter.toUtc = some notAfter ∧
      manifest.issuedAt.toUtc = some issued ∧ manifest.expiresAt.toUtc = some expires ∧
      notBefore.wall ≤ issued.wall ∧ issued.wall < notAfter.wall ∧ expires.wall ≤ notAfter.wall

theorem filter_identity {trust : List ContinuityTrustKey} (h : (trust.map ContinuityTrustKey.identity).Nodup)
    {key : ContinuityTrustKey} (mem : key ∈ trust) : trust.filter (·.identity = key.identity) = [key] := by
  induction trust with
  | nil => cases mem
  | cons k trust ih =>
    rw [List.map_cons, List.nodup_cons] at h
    rcases List.mem_cons.mp mem with rfl | mem
    · have others : trust.filter (·.identity = key.identity) = [] := by
        refine List.filter_eq_nil_iff.mpr fun k hk => ?_
        rw [decide_eq_true_eq]
        exact fun e => h.1 (e ▸ List.mem_map_of_mem hk)
      rw [List.filter_cons_of_pos (by simp), others]
    · have other : k.identity ≠ key.identity := fun e => h.1 (e ▸ List.mem_map_of_mem mem)
      rw [List.filter_cons_of_neg (by simpa using other), ih h.2 mem]

/-- What a signature covers, of a document in canonical form. -/
def signedData (document : Json) : ByteArray := signatureDomain ++ document.encode

theorem signedBytes_canonical {document : Json} (h : document.Canonical) :
    signedBytes document = .ok (signedData document) := by
  simp only [signedBytes, canonical_of_canonical h]
  rfl

theorem Trusts.trustedSignature {trust : List ContinuityTrustKey} {manifest : ContinuityManifest}
    {publicKey signature : ByteArray} {document : Json} (t : Trusts trust manifest publicKey)
    (size : signature.size = ed25519SignatureBytes) (hdoc : manifestDocument lib manifest = .ok document)
    (canon : document.Canonical) (verified : lib.verify publicKey signature (signedData document) = true) :
    trustedSignature lib manifest signature trust = .ok () := by
  obtain ⟨key, mem, identity, rfl, notBefore, notAfter, issued, expires, hb, ha, hi, he, interval⟩ := t.issuer
  simp only [Scheduling.trustedSignature, bind_eq_ok, require_eq_ok]
  refine ⟨(), t.count, (), forM_eq_ok.mpr t.checked, (), t.distinct, ?_⟩
  rw [← identity, filter_identity t.distinct mem]
  simp only [bind_eq_ok, require_eq_ok, utc_eq_ok]
  exact ⟨(), size, notBefore, hb, notAfter, ha, issued, hi, expires, he, (), interval, document,
    hdoc, _, signedBytes_canonical canon, verified⟩

/-- What is trusted of a manifest is trusted of it in UTC. -/
theorem Trusts.withTimes {trust : List ContinuityTrustKey} {manifest : ContinuityManifest} {publicKey : ByteArray}
    {observed issued expires : DateTime} (t : Trusts trust manifest publicKey)
    (d : Documented lib manifest observed issued expires) :
    Trusts trust (manifest.withTimes observed issued expires) publicKey := by
  obtain ⟨key, mem, identity, hkey, notBefore, notAfter, issued', expires', hb, ha, hi, he, interval⟩ := t.issuer
  obtain rfl := Option.some.inj (hi.symm.trans d.issuedUtc)
  obtain rfl := Option.some.inj (he.symm.trans d.expiresUtc)
  exact { t with issuer := ⟨key, mem, identity, hkey, notBefore, notAfter, issued', expires', hb, ha,
    d.withTimes.issuedUtc, d.withTimes.expiresUtc, interval⟩ }

/-! ## Packages -/

section

variable {manifest : ContinuityManifest} {payload package : ByteArray}

theorem signContinuityPackage_eq_ok {key : lib.PrivateKey} :
    signContinuityPackage lib payload manifest key = .ok package ↔ ∃ observed issued expires,
      Documented lib manifest observed issued expires ∧ (0 < payload.size ∧
        payload.size ≤ maxContinuityPayloadBytes ∧ lib.sha256 payload = manifest.payloadSha256) ∧
        package = (envelope (manifest.json manifest.scope.json observed issued expires) payload
          (lib.sign key (signedData (manifest.json manifest.scope.json observed issued expires)))).encode := by
  simp only [signContinuityPackage, bind_eq_ok, require_eq_ok, canonical_eq_ok]
  constructor
  · rintro ⟨document, hdoc, -, accepted, data, hdata, -, hp⟩
    obtain ⟨observed, issued, expires, d, rfl⟩ := manifestDocument_eq_ok.mp hdoc
    obtain rfl := Except.ok.inj ((signedBytes_canonical d.canonical).symm.trans hdata)
    exact ⟨observed, issued, expires, d, accepted, hp⟩
  · rintro ⟨observed, issued, expires, d, accepted, hp⟩
    exact ⟨_, manifestDocument_eq_ok.mpr ⟨_, _, _, d, rfl⟩, (), accepted, _,
      signedBytes_canonical d.canonical, (envelope_canonical d.canonical ..).finite, hp⟩

/-- The canonical package of a manifest in UTC. -/
def packageOf (manifest : ContinuityManifest) (payload signature : ByteArray) : ByteArray :=
  (envelope manifest.document payload signature).encode

/-- What is kept of a package, as JSON and as bytes. -/
def checkpointValue (manifest : ContinuityManifest) (signature : ByteArray) : Json :=
  checkpointJson manifest.document (.str (Base64.b64encode signature))

/-- What an accepted package is: the canonical text of what it is decoded to, trusted and in
its time. -/
structure Accepted (lib : Library) (package : ByteArray) (expectedScope : ContinuityScope)
    (trust : List ContinuityTrustKey) (now : DateTime) (manifest : ContinuityManifest)
    (payload signature : ByteArray) : Prop where
  documented : Documented lib manifest manifest.observedAt manifest.issuedAt manifest.expiresAt
  scope : manifest.scope = expectedScope
  trusted : trustedSignature lib manifest signature trust = .ok ()
  signatureSize : signature.size ≤ ed25519SignatureBytes
  payloadSize : payload.size ≤ maxContinuityPayloadBytes
  fresh : ∃ t, now.toUtc = some t ∧ manifest.issuedAt.wall ≤ t.wall ∧ t.wall < manifest.expiresAt.wall
  digest : payload.size ≠ 0 ∧ lib.sha256 payload = manifest.payloadSha256
  package : package = packageOf manifest payload signature

theorem members_package {members : List (String × Json)} (h : members.map Prod.fst = packageKeys) :
    ∃ m p s, members = [("manifest", m), ("payload", p), ("signature", s)] := by
  match members, h with
  | [(_, m), (_, p), (_, s)], h =>
    simp only [List.map_cons, List.map_nil, packageKeys, List.cons.injEq, and_true] at h
    obtain ⟨rfl, rfl, rfl⟩ := h
    exact ⟨m, p, s, rfl⟩

/-- The verifier accepts just the canonical texts of content that is trusted and in its time. -/
theorem verifyContinuityPackage_eq_ok {expectedScope : ContinuityScope}
    {trust : List ContinuityTrustKey} {now : DateTime} {verified : VerifiedContinuityPackage} :
    verifyContinuityPackage lib package expectedScope trust now = .ok verified ↔
      ∃ manifest payload signature, Accepted lib package expectedScope trust now manifest payload signature ∧
        verified = ⟨manifest, payload, (checkpointValue manifest signature).encode⟩ := by
  simp only [verifyContinuityPackage, bind_eq_ok, require_eq_ok, utc_eq_ok, base64_eq_ok,
    canonical_eq_ok, pure_eq_ok]
  constructor
  · rintro ⟨-, -, members, hjson, manifestValue, hm, manifest, decoded, -, scope, signatureValue, hs, signature,
      ⟨rfl, signatureSize⟩, _, trusted, issued, hissued, t, ht, expires, hexpires, -, fresh, payload,
      ⟨payloadValue, hp, rfl, payloadSize⟩, -, digest, checkpoint, ⟨-, rfl⟩, rfl⟩
    obtain ⟨keys, hpackage, -⟩ := json_eq_ok hjson
    obtain ⟨m, p, s, rfl⟩ := members_package keys
    obtain rfl : m = manifestValue := Except.ok.inj hm
    obtain rfl : s = _ := Except.ok.inj hs
    obtain rfl : p = _ := Except.ok.inj hp
    obtain ⟨d, rfl⟩ := decodeManifest_eq_ok decoded
    obtain rfl : issued = manifest.issuedAt := Option.some.inj (hissued.symm.trans d.issuedUtc)
    obtain rfl : expires = manifest.expiresAt := Option.some.inj (hexpires.symm.trans d.expiresUtc)
    exact ⟨manifest, payload, signature,
      ⟨d, scope, trusted, signatureSize, payloadSize, ⟨t, ht, fresh⟩, digest, hpackage⟩, rfl⟩
  · rintro ⟨manifest, payload, signature, a, rfl⟩
    obtain ⟨t, ht, fresh⟩ := a.fresh
    have d := a.documented
    have read : json lib.floatRepr package packageKeys maxContinuityPackageBytes =
        .ok [("manifest", manifest.document), ("payload", .str (Base64.b64encode payload)),
          ("signature", .str (Base64.b64encode signature))] := by
      rw [a.package]
      exact json_dumps lib.floatRepr (envelope_canonical d.canonical payload signature) rfl
        (size_envelope_le (size_document_le d) a.payloadSize a.signatureSize)
    refine ⟨_, scopeDocument_eq_ok.mpr ⟨a.scope ▸ d.scope, rfl⟩, _, read, manifest.document, rfl, manifest,
      decodeManifest_document d, (), a.scope, .str (Base64.b64encode signature), rfl, signature, ⟨rfl, a.signatureSize⟩,
      (), a.trusted, _, d.issuedUtc, t, ht, _, d.expiresUtc, (), fresh, payload, ⟨_, rfl, rfl, a.payloadSize⟩, (),
      a.digest, (checkpointValue manifest signature).encode, ?_, rfl⟩
    exact ⟨(checkpoint_canonical d.canonical signature).finite, rfl⟩

/-- What is signed is accepted under a trust that has its key, while it is fresh. -/
theorem signContinuityPackage_accepted (hlib : lib.Lawful) {key : lib.PrivateKey}
    (h : signContinuityPackage lib payload manifest key = .ok package) {trust : List ContinuityTrustKey}
    (t : Trusts trust manifest (lib.publicKey key)) {now issued expires clock : DateTime}
    (hissued : manifest.issuedAt.toUtc = some issued) (hexpires : manifest.expiresAt.toUtc = some expires)
    (hnow : now.toUtc = some clock) (fresh : issued.wall ≤ clock.wall ∧ clock.wall < expires.wall) :
    ∃ u signature, manifest.toUtc = some u ∧ Accepted lib package manifest.scope trust now u payload signature := by
  obtain ⟨observed, issued', expires', d, ⟨nonempty, short, digest⟩, rfl⟩ := signContinuityPackage_eq_ok.mp h
  obtain rfl := Option.some.inj (hissued.symm.trans d.issuedUtc)
  obtain rfl := Option.some.inj (hexpires.symm.trans d.expiresUtc)
  have size := hlib.size_sign key (signedData (manifest.json manifest.scope.json observed issued expires))
  have hdoc : manifestDocument lib (manifest.withTimes observed issued expires) =
      .ok (manifest.json manifest.scope.json observed issued expires) :=
    manifestDocument_eq_ok.mpr ⟨_, _, _, d.withTimes, rfl⟩
  refine ⟨_, lib.sign key (signedData (manifest.json manifest.scope.json observed issued expires)), d.toUtc, ?_⟩
  constructor
  case documented => exact d.withTimes
  case scope => rfl
  case trusted => exact (t.withTimes d).trustedSignature size hdoc d.canonical (hlib.verify_sign ..)
  case signatureSize => exact size.le
  case payloadSize => exact short
  case fresh => exact ⟨clock, hnow, fresh⟩
  case digest => exact ⟨Nat.pos_iff_ne_zero.mp nonempty, digest⟩
  case package => exact congrArg Json.encode rfl

/-- A package and its checkpoint have one encoding for what they are decoded to. -/
theorem package_unique {manifest' : ContinuityManifest} {payload' signature signature' : ByteArray}
    (d : Documented lib manifest manifest.observedAt manifest.issuedAt manifest.expiresAt)
    (h : manifest = manifest' ∧ payload = payload' ∧
      (checkpointValue manifest signature).encode = (checkpointValue manifest' signature').encode) :
    packageOf manifest payload signature = packageOf manifest' payload' signature' := by
  obtain ⟨rfl, rfl, h⟩ := h
  have values := encode_injective (checkpoint_canonical d.canonical signature)
    (checkpoint_canonical d.canonical signature') h
  simp only [checkpointJson, Json.obj.injEq, List.cons.injEq, Prod.mk.injEq, Json.str.injEq,
    true_and, and_true] at values
  rw [Base64.b64encode_injective values]

/-- What is signed verifies under the matching trust, scope and time, as the manifest in UTC
and the payload, and is no longer than the verifier reads; what verifies is the canonical
package of what it is decoded to, so two packages decoded to the same are the same. -/
theorem continuityPackage_canonical (lib : Library) (hlib : lib.Lawful) :
    (∀ payload manifest key package, signContinuityPackage lib payload manifest key = .ok package →
      payload.size ≤ maxContinuityPayloadBytes ∧ package.size ≤ maxContinuityPackageBytes ∧
      ∀ trust now issued expires clock, Trusts trust manifest (lib.publicKey key) →
        manifest.issuedAt.toUtc = some issued → manifest.expiresAt.toUtc = some expires →
        now.toUtc = some clock → issued.wall ≤ clock.wall ∧ clock.wall < expires.wall →
        ∃ u checkpoint, manifest.toUtc = some u ∧
          verifyContinuityPackage lib package manifest.scope trust now = .ok ⟨u, payload, checkpoint⟩) ∧
    (∀ package scope trust now verified, verifyContinuityPackage lib package scope trust now = .ok verified →
      ∃ document signature, manifestDocument lib verified.manifest = .ok document ∧
        canonical (envelope document verified.payload signature) = .ok package ∧
        canonical (checkpointJson document (.str (Base64.b64encode signature))) = .ok verified.checkpoint) ∧
    ∀ package package' scope scope' trust trust' now now' verified,
      verifyContinuityPackage lib package scope trust now = .ok verified →
      verifyContinuityPackage lib package' scope' trust' now' = .ok verified → package = package' := by
  refine ⟨?_, ?_, ?_⟩
  · intro payload manifest key package h
    refine ⟨?_, ?_, ?_⟩
    · obtain ⟨-, -, -, -, ⟨-, short, -⟩, -⟩ := signContinuityPackage_eq_ok.mp h
      exact short
    · obtain ⟨_, _, _, d, ⟨-, short, -⟩, hp⟩ := signContinuityPackage_eq_ok.mp h
      rw [hp, size_encode]
      exact size_envelope_le (size_document_le d) short (hlib.size_sign ..).le
    · intro trust now issued expires clock t hissued hexpires hnow fresh
      obtain ⟨u, signature, hu, a⟩ := signContinuityPackage_accepted hlib h t hissued hexpires hnow fresh
      exact ⟨u, _, hu, verifyContinuityPackage_eq_ok.mpr ⟨u, payload, signature, a, rfl⟩⟩
  · intro package scope trust now verified h
    obtain ⟨manifest, payload, signature, a, rfl⟩ := verifyContinuityPackage_eq_ok.mp h
    have d := a.documented
    refine ⟨manifest.document, signature, manifestDocument_eq_ok.mpr ⟨_, _, _, d, rfl⟩, ?_, ?_⟩
    · rw [a.package]
      exact canonical_of_canonical (envelope_canonical d.canonical payload signature)
    · exact canonical_of_canonical (checkpoint_canonical d.canonical signature)
  · intro package package' scope scope' trust trust' now now' verified h h'
    obtain ⟨manifest, payload, signature, a, rfl⟩ := verifyContinuityPackage_eq_ok.mp h
    obtain ⟨manifest', payload', signature', a', same⟩ := verifyContinuityPackage_eq_ok.mp h'
    rw [a.package, a'.package]
    exact package_unique a.documented (VerifiedContinuityPackage.mk.inj same)

end

/-! ## A signed package -/

def stagePublicKey : ByteArray := (Base64.b64decode "11qYAYKxCrfVS/7TyWQHOg7hcvPapiMlrwIaaPcHURo=").getD .empty

def stageSignature : ByteArray := (Base64.b64decode
  "shGgmG2L114403YjvdKpE5bYl6Ga9ZtWS6tekL4LAsREYCOogNbxyi+iyQy9UxrUq+YIGbfotPNhLVoDzr6FAA==").getD .empty

/-- A key pair, and what it signs and SHA-256 makes of `stagePayload`. -/
def stageLibrary : Library where
  PrivateKey := Unit
  publicKey _ := stagePublicKey
  sign _ _ := stageSignature
  verify publicKey signature _ := publicKey = stagePublicKey ∧ signature = stageSignature
  sha256 _ := "d801aa1fb7ddcc330a5e3173372ea6af4a3d08ec58074478e85aa5603e926658"
  zoneInfo name := name = "Europe/Budapest"
  floatRepr := id

theorem stageLibrary_lawful : stageLibrary.Lawful where
  size_publicKey _ := show stagePublicKey.size = _ by decide +kernel
  size_sign _ _ := show stageSignature.size = _ by decide +kernel
  verify_sign _ _ := decide_eq_true (p := stagePublicKey = _ ∧ stageSignature = _) ⟨rfl, rfl⟩

def stagePayload : ByteArray := "\x7b\"entries\":[]\x7d".toByteArray

/-- `2026-05-01T08:00:00+00:00` and a number of minutes. -/
def stageTime (n : Nat) (h : n < 1000 := by decide) : DateTime :=
  .utc (63913219200000000 + n * 60000000) (by
    have : maxMicros = 315537897600000000 := by decide
    omega)

def stageManifest : ContinuityManifest where
  scope := ⟨0x10000000000040008000000000000001, 0x20000000000040008000000000000002, "public", none, "public", none, []⟩
  keyId := "issuer-1"
  observedAt := stageTime 0
  issuedAt := stageTime 1
  expiresAt := stageTime 240
  zoneName := "Europe/Budapest"
  releaseState := "available"
  pointerVersion := some 3
  releaseId := some 0x30000000000040008000000000000003
  payloadSha256 := "d801aa1fb7ddcc330a5e3173372ea6af4a3d08ec58074478e85aa5603e926658"

def stageTrust : List ContinuityTrustKey :=
  [⟨0x10000000000040008000000000000001, 0x20000000000040008000000000000002, "issuer-1",
    stageLibrary.publicKey (), stageTime 0, stageTime 900⟩]

theorem stage_verifies : ∃ package checkpoint,
    signContinuityPackage stageLibrary stagePayload stageManifest () = .ok package ∧
      verifyContinuityPackage stageLibrary package stageManifest.scope stageTrust (stageTime 2) =
        .ok ⟨stageManifest, stagePayload, checkpoint⟩ := by
  have documented : Documented stageLibrary stageManifest (stageTime 0) (stageTime 1) (stageTime 240) := by
    constructor
    case scope => decide +kernel
    case observedUtc | issuedUtc | expiresUtc => exact DateTime.toUtc_utc _
    case times => decide +kernel
    case keyId => decide +kernel
    case digest => decide +kernel
    case zone => decide +kernel
    case zoneInfo => decide +kernel
    case release => decide +kernel
  have signed := (@signContinuityPackage_eq_ok stageLibrary stageManifest stagePayload _ ()).mpr
    ⟨_, _, _, documented, (by decide +kernel : 0 < stagePayload.size ∧ _), rfl⟩
  have trusts : Trusts stageTrust stageManifest (stageLibrary.publicKey ()) := by
    refine ⟨by decide, by decide +kernel, by decide +kernel, _, List.mem_singleton_self _, rfl, rfl, stageTime 0,
      stageTime 900, stageTime 1, stageTime 240, ?_⟩
    decide +kernel
  obtain ⟨u, checkpoint, hu, verified⟩ :=
    ((continuityPackage_canonical stageLibrary stageLibrary_lawful).1 _ _ _ _ signed).2.2
    stageTrust (stageTime 2) (stageTime 1) (stageTime 240) (stageTime 2) trusts (by decide +kernel) (by decide +kernel)
    (by decide +kernel) (by decide +kernel)
  obtain rfl : stageManifest = u := Option.some.inj (Eq.trans (by decide +kernel) hu)
  exact ⟨_, checkpoint, signed, verified⟩

end Maru.Scheduling

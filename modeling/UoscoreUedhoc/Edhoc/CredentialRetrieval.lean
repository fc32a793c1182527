import UoscoreUedhoc.Common.CanonicalCbor
import UoscoreUedhoc.Edhoc.Certificates
import UoscoreUedhoc.Edhoc.CredentialEntries

/-!
# Retrieval of credentials

`retrieve_cred` is sound when it hands on the first entry with the same
`ID_CRED_x`, or a certificate that is verified under the key of an entry with
the name of its issuer.  The search for that entry compares only as many bytes
as the name in the entry has, and stops at the first entry that agrees.
-/

namespace UoscoreUedhoc.Edhoc

open UoscoreUedhoc

/-- The embedded certificate that `retrieve_cred` verifies. -/
def IdCredMap.certificate (map : IdCredMap) : Option (CertLabel × Bytes) :=
  match map.x5chain, map.x5bag, map.c5c, map.c5b with
  | some cert, _, _, _ => some (.x5chain, cert.content)
  | none, some cert, _, _ => some (.x5bag, cert.content)
  | none, none, some cert, _ => some (.c5c, cert.content)
  | none, none, none, some cert => some (.c5b, cert.content)
  | none, none, none, none => none

/-- The static DH key of an entry.  An uncompressed one is handed on as its x
coordinate behind a byte two. -/
def IsDhKeyOf (g key : Bytes) : Prop :=
  if g.length = p256PubKeyUncompressedSize then
    key = 0x2 :: (g.drop 1).take 32
  else
    key = g

/-- The credential and the key of an entry. -/
structure RetrievedCred.IsOfEntry (retrieved : RetrievedCred)
    (staticDhAuth : Bool) (other : OtherPartyCred) : Prop where
  cred : retrieved.cred = other.cred
  pk : retrieved.pk = if staticDhAuth then [] else other.pk
  g : if staticDhAuth then IsDhKeyOf other.g retrieved.g else retrieved.g = []

/-- A certificate and the key in it. -/
structure RetrievedCred.IsOfCertificate (retrieved : RetrievedCred)
    (cbor : CborMapEncoder) (staticDhAuth : Bool) (cert : Bytes)
    (c : SignedCert) : Prop where
  cred : retrieved.cred = cbor.bstr cert
  pk : retrieved.pk = if staticDhAuth then [] else c.pk
  g : retrieved.g = if staticDhAuth then c.pk else []

/-- An entry with exactly the name of the issuer has a key under which the
signature of the certificate is valid. -/
def HasAnchor (crypto : EdhocWrapper) (credArray : List OtherPartyCred)
    (c : SignedCert) : Prop :=
  ∃ other ∈ credArray, other.ca = c.issuer.content ∧
    c.VerifiesUnder crypto other.caPk

section

variable (platform : EdhocPlatform) (parser : X509Parser)
  (behind : Nat → UInt8) (staticDhAuth : Bool)
  (credArray : List OtherPartyCred) (idCred : Bytes)

/-- What `retrieve_cred` returns is the first entry with this `ID_CRED_x`, or a
certificate in it with an anchor in the array. -/
inductive SoundlyRetrieved (retrieved : RetrievedCred) : Prop where
  | entry (map : IdCredMap) (other : OtherPartyCred)
      (decoded : cborDecodeIdCredXMap platform idCred = .ok map)
      (isLocal : map.isLocal = true)
      (first :
        (credArray.find? fun other => other.idCred = idCred) = some other)
      (isOfEntry : retrieved.IsOfEntry staticDhAuth other)
  | certificate (map : IdCredMap) (label : CertLabel) (cert : Bytes)
      (c : SignedCert)
      (decoded : cborDecodeIdCredXMap platform idCred = .ok map)
      (embedded : map.certificate = some (label, cert))
      (parsed : parsedCert platform.zcbor parser label cert = some c)
      (anchored : HasAnchor platform.crypto credArray c)
      (isOfCertificate :
        retrieved.IsOfCertificate platform.cbor staticDhAuth cert c)

/-- Whatever `retrieve_cred` returns is sound. -/
def RetrievesSoundly : Prop :=
  ∀ retrieved,
    retrieveCred (platform.withCertificates parser behind) staticDhAuth
        credArray idCred = .ok retrieved →
      SoundlyRetrieved platform parser staticDhAuth credArray idCred retrieved

/-- The room for the key in a certificate. -/
def certKeyRoom : Nat :=
  if staticDhAuth then gRDefaultSize else pkDefaultSize

/-- An embedded certificate that fits into the buffers has an anchor in the
array, if the first entry whose name is where the issuer's begins has a key
under which its signature is valid. -/
def AnchorsExactly : Prop :=
  ∀ map label cert c other,
    cborDecodeIdCredXMap platform idCred = .ok map → map.isLocal = false →
      map.certificate = some (label, cert) →
        parsedCert platform.zcbor parser label cert = some c →
          (platform.cbor.bstr cert).length ≤ credDefaultSize →
            c.pk.length ≤ certKeyRoom staticDhAuth →
              credArray.find? (matchesIssuer behind c.issuer) = some other →
                c.VerifiesUnder platform.crypto other.caPk →
                  HasAnchor platform.crypto credArray c

end

section

variable {platform : EdhocPlatform} {parser : X509Parser}
  {behind : Nat → UInt8} {staticDhAuth : Bool}
  {credArray : List OtherPartyCred} {idCred : Bytes}

/-! ## Entries -/

theorem staticDhKey_isDhKeyOf {g key : Bytes}
    (handed : staticDhKey g = .ok key) : IsDhKeyOf g key := by
  unfold staticDhKey at handed
  unfold IsDhKeyOf
  split at handed
  · rename_i uncompressed
    rw [if_pos uncompressed]
    obtain ⟨x, copied, same⟩ := outcome_bind_eq_ok.mp handed
    obtain ⟨_, _, rfl⟩ := memcpyS_eq_ok.mp copied
    cases same
    rfl
  · rename_i other
    rw [if_neg other]
    exact (memcpyS_whole_eq_ok.mp handed).2

/-- `get_local_cred` hands on the first entry with this `ID_CRED_x`. -/
theorem getLocalCred_isOfEntry {retrieved : RetrievedCred}
    (found : getLocalCred staticDhAuth credArray idCred = .ok retrieved) :
    ∃ other,
      (credArray.find? fun other => other.idCred = idCred) = some other ∧
        retrieved.IsOfEntry staticDhAuth other := by
  unfold getLocalCred at found
  cases first : credArray.find? fun other => other.idCred = idCred with
  | none =>
      rw [first] at found
      cases found
  | some other =>
      rw [first] at found
      refine ⟨other, rfl, ?_⟩
      obtain ⟨cred, copied, run⟩ := outcome_bind_eq_ok.mp found
      obtain ⟨_, rfl⟩ := memcpyS_whole_eq_ok.mp copied
      cases staticDhAuth with
      | true =>
          obtain ⟨g, handed, same⟩ := outcome_bind_eq_ok.mp run
          cases same
          exact ⟨rfl, rfl, staticDhKey_isDhKeyOf handed⟩
      | false =>
          obtain ⟨pk, copied, same⟩ := outcome_bind_eq_ok.mp run
          obtain ⟨_, rfl⟩ := memcpyS_whole_eq_ok.mp copied
          cases same
          exact ⟨rfl, rfl, rfl⟩

/-! ## Certificates -/

theorem retrieveCred_eq (platform : EdhocPlatform) :
    retrieveCred platform staticDhAuth credArray idCred =
      (do
        let map ← cborDecodeIdCredXMap platform idCred
        if map.isLocal then
          getLocalCred staticDhAuth credArray idCred
        else
          match map.certificate with
          | some (label, cert) =>
              verifyCert2Cred platform staticDhAuth credArray label cert
          | none => fail .credentialNotFound) := by
  unfold retrieveCred IdCredMap.certificate
  congr 1
  funext map
  by_cases isLocal : map.isLocal = true
  · rw [if_pos isLocal, if_pos isLocal]
  · rw [if_neg isLocal, if_neg isLocal]
    cases map.x5chain with
    | some cert =>
        rfl
    | none =>
        cases map.x5bag with
        | some cert =>
            rfl
        | none =>
            cases map.c5c with
            | some cert =>
                rfl
            | none =>
                cases map.c5b with
                | some cert =>
                    rfl
                | none =>
                    rfl

/-- `verify_cert2cred` accepts the certificates that are verified and that fit
into the buffers. -/
theorem verifyCert2Cred_eq_ok {label : CertLabel} {cert : Bytes}
    {retrieved : RetrievedCred} :
    verifyCert2Cred (platform.withCertificates parser behind) staticDhAuth
        credArray label cert = .ok retrieved ↔
      (platform.cbor.bstr cert).length ≤ credDefaultSize ∧
        ∃ c key, parsedCert platform.zcbor parser label cert = some c ∧
          Verified platform behind credArray (certKeyRoom staticDhAuth) c
              key ∧
            retrieved.IsOfCertificate platform.cbor staticDhAuth cert c := by
  have verifies := fun key =>
    @certVerify_eq_ok platform parser behind cert key credArray
      (certKeyRoom staticDhAuth) label
  unfold verifyCert2Cred encodeByteString
  simp only [outcome_bind_eq_ok, cborEncode_eq_ok, Prod.exists]
  constructor
  · rintro ⟨_, ⟨short, rfl⟩, key, verified, isVerified, run⟩
    refine ⟨short, ?_⟩
    cases verified with
    | false =>
        cases run
    | true =>
        obtain ⟨c, parsed, accepted⟩ := (verifies key).mp isVerified
        obtain ⟨_, _, _, _, isKey⟩ := id accepted
        refine ⟨c, key, parsed, accepted, ?_⟩
        subst isKey
        cases staticDhAuth with
        | true =>
            cases run
            exact ⟨rfl, rfl, rfl⟩
        | false =>
            cases run
            exact ⟨rfl, rfl, rfl⟩
  · rintro ⟨short, c, key, parsed, accepted, isOfCertificate⟩
    have isVerified := (verifies key).mpr ⟨c, parsed, accepted⟩
    obtain ⟨_, _, _, _, rfl⟩ := id accepted
    refine ⟨_, ⟨short, rfl⟩, c.pk, true, isVerified, ?_⟩
    obtain ⟨cred, pk, g⟩ := retrieved
    obtain ⟨isCred, isPk, isG⟩ := isOfCertificate
    dsimp only at isCred isPk isG
    subst isCred isPk isG
    cases staticDhAuth with
    | true =>
        rfl
    | false =>
        rfl

theorem soundlyRetrieved_of_anchorsExactly
    (anchors : AnchorsExactly platform parser behind staticDhAuth credArray
      idCred) :
    RetrievesSoundly platform parser behind staticDhAuth credArray idCred := by
  intro retrieved run
  rw [retrieveCred_eq] at run
  obtain ⟨map, decoded, run⟩ := outcome_bind_eq_ok.mp run
  by_cases isLocal : map.isLocal = true
  · rw [if_pos isLocal] at run
    obtain ⟨other, first, isOfEntry⟩ := getLocalCred_isOfEntry run
    exact .entry map other decoded isLocal first isOfEntry
  · rw [if_neg isLocal] at run
    cases embedded : map.certificate with
    | none =>
        rw [embedded] at run
        cases run
    | some found =>
        obtain ⟨label, cert⟩ := found
        rw [embedded] at run
        obtain ⟨short, c, key, parsed, ⟨other, first, valid, fits, _⟩,
          isOfCertificate⟩ := verifyCert2Cred_eq_ok.mp run
        have anchored := anchors map label cert c other decoded
          (Bool.eq_false_iff.mpr isLocal) embedded parsed short fits first
          valid
        exact .certificate map label cert c decoded embedded parsed anchored
          isOfCertificate

/-- What is returned of a certificate. -/
def RetrievedCred.ofCertificate (cbor : CborMapEncoder) (staticDhAuth : Bool)
    (cert : Bytes) (c : SignedCert) : RetrievedCred :=
  ⟨cbor.bstr cert, if staticDhAuth then [] else c.pk,
    if staticDhAuth then c.pk else []⟩

/-- Without an anchor a certificate is not soundly retrieved. -/
theorem anchorsExactly_of_soundlyRetrieved
    (soundly : RetrievesSoundly platform parser behind staticDhAuth credArray
      idCred) :
    AnchorsExactly platform parser behind staticDhAuth credArray idCred := by
  intro map label cert c other decoded notLocal embedded parsed short fits
    first valid
  have run : retrieveCred (platform.withCertificates parser behind)
      staticDhAuth credArray idCred =
        .ok (.ofCertificate platform.cbor staticDhAuth cert c) := by
    have accepted := (@verifyCert2Cred_eq_ok platform parser behind
      staticDhAuth credArray label cert
      (.ofCertificate platform.cbor staticDhAuth cert c)).mpr
        ⟨short, c, c.pk, parsed, ⟨other, first, valid, fits, rfl⟩,
          ⟨rfl, rfl, rfl⟩⟩
    have sameDecoded :
        cborDecodeIdCredXMap (platform.withCertificates parser behind)
          idCred = .ok map := decoded
    rw [retrieveCred_eq, sameDecoded, outcome_ok_bind,
      if_neg (Bool.eq_false_iff.mp notLocal), embedded]
    exact accepted
  cases soundly _ run with
  | entry map' other' decoded' isLocal first' isOfEntry =>
      rw [decoded] at decoded'
      cases decoded'
      rw [notLocal] at isLocal
      cases isLocal
  | certificate map' label' cert' c' decoded' embedded' parsed' anchored
      isOfCertificate =>
      rw [decoded] at decoded'
      cases decoded'
      rw [embedded] at embedded'
      cases embedded'
      rw [parsed] at parsed'
      cases parsed'
      exact anchored

/-- `retrieve_cred` is sound just where every certificate that it verifies under
the first name that is where the issuer's begins has an anchor with exactly the
name of the issuer. -/
theorem retrieval_sound_iff (platform : EdhocPlatform) (parser : X509Parser)
    (behind : Nat → UInt8) (staticDhAuth : Bool)
    (credArray : List OtherPartyCred) (idCred : Bytes) :
    RetrievesSoundly platform parser behind staticDhAuth credArray idCred ↔
      AnchorsExactly platform parser behind staticDhAuth credArray idCred :=
  ⟨anchorsExactly_of_soundlyRetrieved, soundlyRetrieved_of_anchorsExactly⟩

/-- Where names are compared with exactly the name of the issuer, retrieval is
sound. -/
theorem anchorsExactly_of_exactNames
    (exact : ∀ label cert c, ∀ other ∈ credArray,
      parsedCert platform.zcbor parser label cert = some c →
        matchesIssuer behind c.issuer other = true →
          other.ca = c.issuer.content) :
    AnchorsExactly platform parser behind staticDhAuth credArray idCred := by
  intro map label cert c other decoded notLocal embedded parsed short fits
    first valid
  have member := List.mem_of_find?_eq_some first
  have isMatch := List.find?_some first
  exact ⟨other, member, exact label cert c other member parsed isMatch, valid⟩

end

/-! ## A name that begins another one -/

/-- The certificate of the authority `"AB"` without its signature. -/
def abCertificate : Bytes :=
  canonicalCbor.int32 0 ++ canonicalCbor.int32 1 ++
    canonicalCbor.tstr [0x41, 0x42] ++ canonicalCbor.int32 0 ++
    canonicalCbor.int32 1 ++ canonicalCbor.bstr [5] ++
    canonicalCbor.int32 0 ++ canonicalCbor.bstr [7, 7] ++
    canonicalCbor.int32 0 ++ canonicalCbor.int32 (-8)

def abSignature : Bytes :=
  List.replicate 64 3

/-- The only signature is one by the authority `"A"`, whose public key is the
byte nine. -/
def aRecords : EdhocRecords :=
  ⟨[], [], [], [], [], [(([8], [9], abCertificate), abSignature)]⟩

theorem aRecords_lengths : aRecords.LengthsRight where
  aead := nofun
  hash := nofun
  hkdfExtract := nofun
  hkdfExpand := nofun
  sign := by
    decide

def aPlatform : EdhocPlatform where
  crypto := EdhocWrapper.completed aRecords aRecords_lengths
  cbor := canonicalMapCbor
  zcbor := canonicalZcbor

/-- The array knows the authority `"A"`, and none of the name `"AB"`. -/
def aCredentials : List OtherPartyCred :=
  [⟨[], [], [], [], [0x41], [9]⟩]

def abSigned : Bytes :=
  abCertificate ++ canonicalCbor.bstr abSignature

/-- A certificate that names the issuer `"AB"` is accepted under the key of the
authority `"A"`. -/
theorem prefixName_accepted :
    ¬ ∀ (platform : EdhocPlatform) (parser : X509Parser)
        (behind : Nat → UInt8) (staticDhAuth : Bool)
        (credArray : List OtherPartyCred) (idCred : Bytes),
      RetrievesSoundly platform parser behind staticDhAuth credArray
        idCred := by
  intro soundly
  have anchors := anchorsExactly_of_soundlyRetrieved
    (soundly aPlatform none (fun _ => 0) false aCredentials
      ((IdCredEntry.string .c5c abSigned).encoding canonicalMapCbor))
  have decoded : cborDecodeIdCredXMap aPlatform
      ((IdCredEntry.string .c5c abSigned).encoding canonicalMapCbor) =
        .ok (StringLabel.c5c.member ⟨abSigned.length, abSigned⟩) := by
    decide +kernel
  have parsed : parsedCert aPlatform.zcbor none .c5c abSigned =
      some
        ⟨⟨2, abSigned.drop 3⟩, .edDsa, abCertificate, abSignature,
          [7, 7]⟩ := by
    decide +kernel
  have valid : aPlatform.crypto.verify .edDsa [9] abCertificate abSignature =
      some true := by
    decide +kernel
  have content :
      (⟨abSigned.length, abSigned⟩ : ByteArrayView).content = abSigned :=
    List.take_length
  obtain ⟨other, known, name, _⟩ :=
    anchors _ .c5c abSigned _ ⟨[], [], [], [], [0x41], [9]⟩ decoded rfl
      (congrArg (fun cert => some (CertLabel.c5c, cert)) content) parsed
      (by decide +kernel) (by decide) (by decide +kernel) valid
  rw [List.mem_singleton.mp known] at name
  exact absurd name (by decide)

end UoscoreUedhoc.Edhoc

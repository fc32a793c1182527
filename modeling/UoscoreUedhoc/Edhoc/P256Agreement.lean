import UoscoreUedhoc.Edhoc.P256Points

/-!
# Key agreement on P-256

With MBEDTLS as it is documented, `shared_secret_derive` accepts exactly the
compressed points of the curve and computes the first coordinate of their
multiple.  The public keys of `ephemeral_dh_key_gen` have lost the sign of the
second coordinate, which does not change that coordinate, so that both parties
get the same secret.
-/

namespace UoscoreUedhoc.Edhoc

open UoscoreUedhoc
open UoscoreUedhoc.CurvePoints
open UoscoreUedhoc.PaddedDigits

/-! ## What PSA does -/

/-- The secret that a point stands for. -/
def secretBytes (P : secp256r1.curve.Point) : Option Bytes :=
  (xCoordinate P).map secp256r1.fieldBytes

/-- The point that a private key and a point give. -/
def multiple (sk : Bytes) (P : secp256r1.curve.Point) :
    secp256r1.curve.Point :=
  bigEndianValue sk • P

/-- The behaviour of PSA for keys on P-256: public keys are multiples of the
base point, a key agreement takes the first coordinate of a multiple, and
bytes that are not a point are refused. -/
structure PsaEcc.Documented (psa : PsaEcc) : Prop where
  exports : ∀ sk : psa.PrivateKey,
    psa.exportPublicKey sk = secp256r1.encodePoint (multiple sk basePoint)
  agrees : ∀ (sk : psa.PrivateKey) (P : secp256r1.curve.Point) (peer : Bytes),
    secp256r1.encodePoint P = some peer →
      psa.rawKeyAgreement sk peer = secretBytes (multiple sk P)
  refuses : ∀ (sk : psa.PrivateKey) (peer : Bytes),
    (∀ P, secp256r1.encodePoint P ≠ some peer) →
      psa.rawKeyAgreement sk peer = none

/-- The behaviour of MBEDTLS for keys on P-256. -/
structure MbedtlsEcc.Documented (mbedtls : MbedtlsEcc) : Prop where
  psa : mbedtls.psa.Documented
  mpi : mbedtls.mpi.Documented
  groupLoad : mbedtls.groupLoad = some secp256r1

/-! ## Shared secrets -/

section

variable {mbedtls : MbedtlsEcc} (documented : mbedtls.Documented)

include documented

theorem decompress_encodes {pk : Bytes} (P : secp256r1.curve.Point) :
    (∃ peer,
        mbedtlsEcpDecompress mbedtls.mpi secp256r1 pk
            p256PubKeyUncompressedSize = .ok peer ∧
          secp256r1.encodePoint P = some peer) ↔
      secp256r1.compressPoint P = some pk := by
  have room : 2 * secp256r1.plen + 1 ≤ p256PubKeyUncompressedSize := by
    decide
  rw [ecpDecompress_encodes documented.mpi secp256r1_withinBits rfl P]
  exact and_iff_right room

theorem deriveP256_of_compressed {sk : Bytes}
    (imported : mbedtls.psa.importKey sk = true) {P : secp256r1.curve.Point}
    {pk : Bytes} (compressed : secp256r1.compressPoint P = some pk) :
    sharedSecretDeriveP256 mbedtls sk pk =
      tryExpect (secretBytes (multiple sk P)) := by
  obtain ⟨peer, decompressed, encodes⟩ :=
    (decompress_encodes documented P).mpr compressed
  have agreed := documented.psa.agrees ⟨sk, imported⟩ P peer encodes
  simp only at agreed
  simp [sharedSecretDeriveP256, imported, documented.groupLoad, decompressed,
    Except.toOption, tryExpect, agreed]

theorem deriveP256_isCompressed {sk pk secret : Bytes}
    (derived : sharedSecretDeriveP256 mbedtls sk pk = .ok secret) :
    mbedtls.psa.importKey sk = true ∧
      ∃ P, secp256r1.compressPoint P = some pk := by
  by_cases imported : mbedtls.psa.importKey sk = true
  · refine ⟨imported, ?_⟩
    simp only [sharedSecretDeriveP256, imported, not_true_eq_false, if_false]
      at derived
    obtain ⟨grp, loaded, derived⟩ := outcome_bind_eq_ok.mp derived
    obtain ⟨peer, decompressed, agreed⟩ := outcome_bind_eq_ok.mp derived
    rw [tryExpect_eq_ok] at loaded decompressed agreed
    rw [documented.groupLoad, Option.some.injEq] at loaded
    subst loaded
    have isOutput : mbedtlsEcpDecompress mbedtls.mpi secp256r1 pk
        p256PubKeyUncompressedSize = .ok peer := by
      cases output : mbedtlsEcpDecompress mbedtls.mpi secp256r1 pk
          p256PubKeyUncompressedSize with
      | error _ =>
          rw [output] at decompressed
          cases decompressed
      | ok value =>
          rw [output] at decompressed
          rw [Option.some.inj decompressed]
    by_contra noPoint
    push Not at noPoint
    have notPoint : ∀ P, secp256r1.encodePoint P ≠ some peer := by
      intro P encodes
      exact noPoint P
        ((decompress_encodes documented P).mp ⟨peer, isOutput, encodes⟩)
    have refused := documented.psa.refuses ⟨sk, imported⟩ peer notPoint
    simp only at refused
    rw [refused] at agreed
    cases agreed
  · simp only [sharedSecretDeriveP256, imported] at derived
    cases derived

theorem deriveP256_eq_ok {sk pk secret : Bytes} :
    sharedSecretDeriveP256 mbedtls sk pk = .ok secret ↔
      mbedtls.psa.importKey sk = true ∧
        ∃ P, secp256r1.compressPoint P = some pk ∧
          secretBytes (multiple sk P) = some secret := by
  constructor
  · intro derived
    obtain ⟨imported, P, compressed⟩ :=
      deriveP256_isCompressed documented derived
    rw [deriveP256_of_compressed documented imported compressed,
      tryExpect_eq_ok] at derived
    exact ⟨imported, P, compressed, derived⟩
  · rintro ⟨imported, P, compressed, isSecret⟩
    rw [deriveP256_of_compressed documented imported compressed,
      tryExpect_eq_ok]
    exact isSecret

end

/-! ## A PSA -/

/-- The point that bytes stand for. -/
def decodePoint (peer : Bytes) : Option secp256r1.curve.Point :=
  let x := bigEndianValue (peer.tail.take 32)
  let y : ZMod secp256r1.p := bigEndianValue (peer.drop 33)
  if onCurve : y ^ 2 = (secp256r1.ySquared x : ZMod secp256r1.p) then
    let P : secp256r1.curve.Point :=
      .some x y ((curve_nonsingular secp256r1_discriminant x y).mpr onCurve)
    if secp256r1.encodePoint P = some peer then
      some P
    else
      none
  else
    none

theorem decodePoint_eq_some {P : secp256r1.curve.Point} {peer : Bytes} :
    decodePoint peer = some P ↔ secp256r1.encodePoint P = some peer := by
  constructor
  · intro decoded
    simp only [decodePoint] at decoded
    split at decoded
    · split at decoded
      · rename_i encodes
        rw [← Option.some.inj decoded]
        exact encodes
      · cases decoded
    · cases decoded
  · intro encodes
    cases P with
    | zero =>
        cases encodes
    | some x y onCurve =>
        have isPeer := Option.some.inj encodes
        have xLength : (secp256r1.fieldBytes x).length = 32 :=
          fieldBytes_length x
        have isX : ((bigEndianValue (peer.tail.take 32) : Nat) :
            ZMod secp256r1.p) = x := by
          rw [← isPeer]
          simp only [List.cons_append, List.tail_cons, ← xLength,
            List.take_left', value_fieldBytes, ZMod.natCast_zmod_val]
        have isY : ((bigEndianValue (peer.drop 33) : Nat) :
            ZMod secp256r1.p) = y := by
          rw [← isPeer, List.cons_append, List.drop_succ_cons,
            List.drop_left' xLength, value_fieldBytes,
            ZMod.natCast_zmod_val]
        have equation := (curve_nonsingular secp256r1_discriminant
          (bigEndianValue (peer.tail.take 32)) y).mp (by rwa [isX])
        have decodes (decoded : secp256r1.curve.Nonsingular
            (bigEndianValue (peer.tail.take 32) : ZMod secp256r1.p)
            (bigEndianValue (peer.drop 33) : ZMod secp256r1.p)) :
            WeierstrassCurve.Affine.Point.some _ _ decoded =
              .some x y onCurve := by
          simp only [isX, isY]
        simp only [decodePoint]
        rw [dif_pos (by rwa [isY]), decodes, if_pos encodes]

/-- The order of the base point. -/
def secp256r1Order : Nat :=
  0xFFFFFFFF00000000FFFFFFFFFFFFFFFFBCE6FAADA7179E84F3B9CAC2FC632551

/-- A PSA that computes on the points. -/
def pointPsa : PsaEcc where
  importKey sk :=
    sk.length = 32 ∧ 0 < bigEndianValue sk ∧
      bigEndianValue sk < secp256r1Order
  exportPublicKey sk := secp256r1.encodePoint (multiple sk basePoint)
  rawKeyAgreement sk peer :=
    (decodePoint peer).bind fun P => secretBytes (multiple sk P)

theorem pointPsa_documented : pointPsa.Documented where
  exports _ := rfl
  agrees := by
    intro sk P peer encodes
    simp only [pointPsa, decodePoint_eq_some.mpr encodes, Option.bind_some]
  refuses := by
    intro sk peer notPoint
    cases decoded : decodePoint peer with
    | none =>
        simp only [pointPsa, decoded, Option.bind_none]
    | some P =>
        exact absurd (decodePoint_eq_some.mp decoded) (notPoint P)

/-- MBEDTLS with this PSA and with integers for its numbers. -/
def pointMbedtls : MbedtlsEcc where
  psa := pointPsa
  mpi := integerMpi
  groupLoad := some secp256r1

theorem pointMbedtls_documented : pointMbedtls.Documented where
  psa := pointPsa_documented
  mpi := integerMpi_documented
  groupLoad := rfl

/-- A private key with a small number. -/
def smallKey (number : Nat) : Bytes :=
  bigEndian 32 number

def pointLibraries : EcdhLibraries where
  compact25519 := none
  tinycrypt := none
  mbedtls := some pointMbedtls

/-! ## What is accepted -/

/-- `shared_secret_derive` for P-256 takes exactly the compressed points of the
curve, and the secret is the first coordinate of their multiple. -/
theorem sharedSecretDerive_p256 (libraries : EcdhLibraries)
    (mbedtls : MbedtlsEcc) (isMbedtls : libraries.mbedtls = some mbedtls)
    (documented : mbedtls.Documented) (sk pk secret : Bytes) :
    sharedSecretDerive libraries .p256 sk pk = .ok secret ↔
      mbedtls.psa.importKey sk = true ∧
        ∃ P, secp256r1.compressPoint P = some pk ∧
          secretBytes (multiple sk P) = some secret := by
  have isP256 : sharedSecretDerive libraries .p256 sk pk =
      sharedSecretDeriveP256 mbedtls sk pk := by
    simp [sharedSecretDerive, isMbedtls]
  rw [isP256]
  exact deriveP256_eq_ok documented

/-- The opposite of the base point gives the same secret. -/
theorem sharedSecretDerive_p256_base :
    sharedSecretDerive pointLibraries .p256 (smallKey 1)
        (2 :: bigEndian 32 baseX) = .ok (bigEndian 32 baseX) :=
  (sharedSecretDerive_p256 pointLibraries pointMbedtls rfl
    pointMbedtls_documented (smallKey 1) (2 :: bigEndian 32 baseX) (bigEndian 32 baseX)).mpr
    ⟨by decide +kernel, -basePoint, by decide +kernel, by decide +kernel⟩

/-! ## Generated keys -/

/-- Among a point and its opposite one has an even second coordinate. -/
theorem exists_evenPoint {P : secp256r1.curve.Point} {x : ZMod secp256r1.p}
    (isX : xCoordinate P = some x) :
    ∃ Q, secp256r1.compressPoint Q = some (2 :: secp256r1.fieldBytes x) ∧
      xCoordinate Q = some x := by
  cases P with
  | zero =>
      cases isX
  | some x' y onCurve =>
      cases isX
      by_cases isEven : y.val % 2 = 0
      · refine ⟨.some x y onCurve, ?_, rfl⟩
        simp [EcpGroup.compressPoint, isEven]
      · refine ⟨-.some x y onCurve, ?_, rfl⟩
        have notZero : y ≠ 0 := by
          rintro rfl
          exact isEven (by simp)
        have isNeg : (secp256r1.curve.negY x y) = -y :=
          shortCurve_negY _ _ x y
        have negEven : (-y).val % 2 = 0 := by
          have small := y.val_lt
          have isOdd : secp256r1.p % 2 = 1 := by
            decide
          rw [ZMod.neg_val, if_neg notZero]
          omega
        simp only [WeierstrassCurve.Affine.Point.neg_some,
          EcpGroup.compressPoint, isNeg, negEven, if_true]

/-- The public key is compressed and stands for the point of the private key up
to its sign. -/
def IsKeyPair (psa : PsaEcc) (alg : EcdhAlg) (sk pk : Bytes) : Prop :=
  alg = .p256 ∧ psa.importKey sk = true ∧
    ∃ P, secp256r1.compressPoint P = some pk ∧
      xCoordinate P = xCoordinate (multiple sk basePoint)

/-- The keys come from `ephemeral_dh_key_gen` for P-256. -/
def Generated (libraries : EcdhLibraries) (sk pk : Bytes) : Prop :=
  ∃ seed unwritten drawn buffers pkSize,
    ephemeralDhKeyGen libraries .p256 seed unwritten drawn buffers pkSize =
      .ok (sk, pk)

section

theorem keyGenP256_isKeyPair {psa : PsaEcc} (documented : psa.Documented)
    {drawn : Option psa.PrivateKey} {pkSize : Nat} {sk pk : Bytes}
    (generated : ephemeralDhKeyGenP256 psa drawn pkSize = .ok (sk, pk)) :
    IsKeyPair psa .p256 sk pk := by
  unfold ephemeralDhKeyGenP256 at generated
  split at generated
  · cases generated
  · obtain ⟨key, _, generated⟩ := outcome_bind_eq_ok.mp generated
    obtain ⟨uncompressed, exported, generated⟩ :=
      outcome_bind_eq_ok.mp generated
    rw [tryExpect_eq_ok, documented.exports key] at exported
    split at generated
    · cases generated
    · rw [Except.ok.injEq, Prod.mk.injEq] at generated
      obtain ⟨rfl, rfl⟩ := generated
      refine ⟨rfl, key.2, ?_⟩
      cases isPoint : multiple key basePoint with
      | zero =>
          rw [isPoint] at exported
          cases exported
      | some x y onCurve =>
          rw [isPoint] at exported
          have isUncompressed := Option.some.inj exported
          obtain ⟨Q, compressed, sameX⟩ :=
            exists_evenPoint (P := .some x y onCurve) rfl
          refine ⟨Q, ?_, sameX⟩
          have xLength : (secp256r1.fieldBytes x).length = 32 :=
            fieldBytes_length x
          rw [compressed, ← isUncompressed]
          simp [← xLength]

variable {libraries : EcdhLibraries} {mbedtls : MbedtlsEcc}
  (isMbedtls : libraries.mbedtls = some mbedtls)
  (documented : mbedtls.Documented)

include isMbedtls documented

theorem generated_isKeyPair {sk pk : Bytes}
    (generated : Generated libraries sk pk) :
    IsKeyPair mbedtls.psa .p256 sk pk := by
  obtain ⟨_, _, drawn, _, pkSize, generated⟩ := generated
  simp only [ephemeralDhKeyGen, isMbedtls] at generated
  exact keyGenP256_isKeyPair documented.psa generated

/-- What is derived does not depend on the signs that the public keys have
lost. -/
theorem keyPairs_derive {alg : EcdhAlg} {a gA b gB : Bytes}
    (left : IsKeyPair mbedtls.psa alg a gA)
    (right : IsKeyPair mbedtls.psa alg b gB) :
    sharedSecretDerive libraries alg a gB =
      tryExpect
        (secretBytes
          ((bigEndianValue a * bigEndianValue b) • basePoint)) := by
  obtain ⟨rfl, imported, _⟩ := left
  obtain ⟨_, _, Q, compressed, sameX⟩ := right
  have isP256 : sharedSecretDerive libraries .p256 a gB =
      sharedSecretDeriveP256 mbedtls a gB := by
    simp [sharedSecretDerive, isMbedtls]
  rw [isP256, deriveP256_of_compressed documented imported compressed]
  unfold secretBytes multiple
  rw [xCoordinate_agree sameX]

end

/-- From generated keys both parties derive the first coordinate of one and the
same multiple of the base point. -/
theorem generatedKeys_agree (libraries : EcdhLibraries) (mbedtls : MbedtlsEcc)
    (isMbedtls : libraries.mbedtls = some mbedtls)
    (documented : mbedtls.Documented) (a gA b gB : Bytes)
    (left : Generated libraries a gA) (right : Generated libraries b gB) :
    sharedSecretDerive libraries .p256 a gB =
        tryExpect
          (secretBytes
            ((bigEndianValue a * bigEndianValue b) • basePoint)) ∧
      sharedSecretDerive libraries .p256 b gA =
        sharedSecretDerive libraries .p256 a gB := by
  have leftPair := generated_isKeyPair isMbedtls documented left
  have rightPair := generated_isKeyPair isMbedtls documented right
  have derived := keyPairs_derive isMbedtls documented leftPair rightPair
  refine ⟨derived, ?_⟩
  rw [derived, keyPairs_derive isMbedtls documented rightPair leftPair,
    Nat.mul_comm]

/-- `psa_generate_key` drawing one key. -/
def drawKey (sk : Bytes) (psa : PsaEcc) : Option psa.PrivateKey :=
  if imported : psa.importKey sk = true then
    some ⟨sk, imported⟩
  else
    none

/-- The first coordinate of the double of the base point. -/
def doubleX : Nat :=
  0x7CF27B188D034F7E8A52380304B51AC3C08969E277F21B35A60B48FC47669978

theorem generatedKeys_agree_double :
    sharedSecretDerive pointLibraries .p256 (smallKey 1)
        (2 :: bigEndian 32 doubleX) =
      sharedSecretDerive pointLibraries .p256 (smallKey 2)
        (2 :: bigEndian 32 baseX) :=
  (generatedKeys_agree pointLibraries pointMbedtls rfl
    pointMbedtls_documented (smallKey 2) (2 :: bigEndian 32 doubleX) (smallKey 1)
    (2 :: bigEndian 32 baseX)
    ⟨[], [], drawKey (smallKey 2), ([], []), 33, by decide +kernel⟩
    ⟨[], [], drawKey (smallKey 1), ([], []), 33, by decide +kernel⟩).2

end UoscoreUedhoc.Edhoc

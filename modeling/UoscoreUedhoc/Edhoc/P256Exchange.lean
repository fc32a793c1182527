import UoscoreUedhoc.Edhoc.KeyAgreement
import UoscoreUedhoc.Edhoc.P256Agreement

/-!
# Key exchanges on P-256

With the suites 2 and 3 the public keys that EDHOC sends and finds in
credentials may have lost the sign of their second coordinate: the generated
ones, and the ones that `get_local_cred` takes out of an uncompressed key.
Both parties still end with the same keys.
-/

namespace UoscoreUedhoc.Edhoc

open UoscoreUedhoc
open UoscoreUedhoc.CurvePoints
open UoscoreUedhoc.PaddedDigits
open Update

/-! ## The keys of EDHOC -/

/-- The secrets of EDHOC are derived with the given libraries. -/
def EdhocWrapper.DerivesWith (crypto : EdhocWrapper)
    (libraries : EcdhLibraries) : Prop :=
  ∀ (alg : EcdhAlg) (sk pk : Bytes),
    crypto.sharedSecretDerive alg sk pk =
      (Edhoc.sharedSecretDerive libraries alg sk pk).toOption

/-- The static key that is taken out of an uncompressed one. -/
theorem staticDhKey_uncompressed {P : secp256r1.curve.Point} {g : Bytes}
    (encodes : secp256r1.encodePoint P = some g) :
    ∃ Q key, staticDhKey g = .ok key ∧
      secp256r1.compressPoint Q = some key ∧
        xCoordinate Q = xCoordinate P := by
  cases P with
  | zero =>
      cases encodes
  | some x y onCurve =>
      have isG := Option.some.inj encodes
      obtain ⟨Q, compressed, sameX⟩ :=
        exists_evenPoint (P := .some x y onCurve) rfl
      refine ⟨Q, _, ?_, compressed, sameX⟩
      have xLength : (secp256r1.fieldBytes x).length = 32 :=
        fieldBytes_length x
      have yLength : (secp256r1.fieldBytes y).length = 32 :=
        fieldBytes_length y
      have gLength : g.length = p256PubKeyUncompressedSize := by
        rw [← isG]
        simp [xLength, yLength, p256PubKeyUncompressedSize]
      have copied : memcpyS (gRDefaultSize - 1) (g.drop 1) 32 =
          .ok (secp256r1.fieldBytes x) := by
        rw [memcpyS_eq_ok, ← isG]
        refine ⟨by decide, by simp [xLength], ?_⟩
        simp [← xLength]
      unfold staticDhKey
      rw [if_pos gLength, copied]
      rfl

/-- A compressed static key is taken as it is. -/
theorem staticDhKey_compressed {P : secp256r1.curve.Point} {g : Bytes}
    (compressed : secp256r1.compressPoint P = some g) :
    staticDhKey g = .ok g := by
  cases P with
  | zero =>
      cases compressed
  | some x y onCurve =>
      have gLength : g.length = 33 := by
        rw [← Option.some.inj compressed]
        simp [fieldBytes_length x]
        rfl
      unfold staticDhKey
      rw [if_neg (by rw [gLength]; decide)]
      exact memcpyS_whole (by rw [gLength]; decide)

theorem keyPairs_commute {libraries : EcdhLibraries} {mbedtls : MbedtlsEcc}
    (isMbedtls : libraries.mbedtls = some mbedtls)
    (documented : mbedtls.Documented) {crypto : EdhocWrapper}
    (derives : crypto.DerivesWith libraries) :
    DhCommutes crypto (IsKeyPair mbedtls.psa) := by
  intro alg a gA b gB left right
  rw [derives, derives, keyPairs_derive isMbedtls documented left right,
    keyPairs_derive isMbedtls documented right left, Nat.mul_comm]

/-- Over P-256 both parties end with the same keys when the messages are
delivered unchanged, whatever signs their public keys have lost. -/
theorem edhocP256_keysAgree (platform : EdhocPlatform)
    (libraries : EcdhLibraries) (mbedtls : MbedtlsEcc)
    (isMbedtls : libraries.mbedtls = some mbedtls)
    (documented : mbedtls.Documented)
    (derives : platform.crypto.DerivesWith libraries)
    (inverts : platform.zcbor.Inverts platform.cbor)
    (aeadInverts : platform.crypto.AeadInverts)
    (stackI stackR : Stack)
    (initiator : InitiatorContext) (buffersI : InitiatorBuffers)
    (responder : ResponderContext) (buffersR : ResponderBuffers)
    (storedI : initiator.IsStored) (storedR : responder.cR.IsStored)
    (suite : Suite) (isSuite : selectedSuite initiator.suitesI = .ok suite)
    (gYLength : responder.gY.length = getEcdhPkLen suite.edhocEcdh)
    (keys : MatchingKeys platform (IsKeyPair mbedtls.psa) suite.edhocEcdh
      initiator buffersI responder buffersR)
    (outI : InitiatorOutput) (outR : ResponderOutput)
    (delivered : Delivered platform stackI stackR initiator buffersI
      responder buffersR outI outR) :
    outI.prk4x3m = outR.prk4x3m ∧ outI.th4 = outR.th4 :=
  delivered_sameKeys inverts aeadInverts
    (keyPairs_commute isMbedtls documented derives) storedI storedR isSuite
    gYLength keys delivered

/-! ## An exchange over P-256 -/

def p256GX : Bytes :=
  [2, 0x7C, 0xF2, 0x7B, 0x18, 0x8D, 3, 0x4F, 0x7E, 0x8A, 0x52, 0x38, 3, 4,
    0xB5, 0x1A, 0xC3, 0xC0, 0x89, 0x69, 0xE2, 0x77, 0xF2, 0x1B, 0x35, 0xA6,
    0x0B, 0x48, 0xFC, 0x47, 0x66, 0x99, 0x78]

def p256GY : Bytes :=
  [2, 0x5E, 0xCB, 0xE4, 0xD1, 0xA6, 0x33, 0x0A, 0x44, 0xC8, 0xF7, 0xEF, 0x95,
    0x1D, 0x4B, 0xF1, 0x65, 0xE6, 0xC6, 0xB7, 0x21, 0xEF, 0xAD, 0xA9, 0x85,
    0xFB, 0x41, 0x66, 0x1B, 0xC6, 0xE7, 0xFD, 0x6C]

def p256GXy : Bytes :=
  [0xB0, 0x1A, 0x17, 0x2A, 0x76, 0xA4, 0x60, 0x2C, 0x92, 0xD3, 0x24, 0x2C,
    0xB8, 0x97, 0xDD, 0xE3, 2, 0x4C, 0x74, 0x0D, 0xEB, 0xB2, 0x15, 0xB4, 0xC6,
    0xB0, 0xAA, 0xE9, 0x3C, 0x22, 0x91, 0xA9]

def p256GRx : Bytes :=
  [0x62, 0xD9, 0x77, 0x9D, 0xBE, 0xE9, 0xB0, 0x53, 0x40, 0x42, 0x74, 0x2D,
    0x3A, 0xB5, 0x4C, 0xAD, 0xC1, 0xD2, 0x38, 0x98, 0x0F, 0xCE, 0x97, 0xDB,
    0xB4, 0xDD, 0x9D, 0xC1, 0xDB, 0x6F, 0xB3, 0x93]

def p256GIy : Bytes :=
  [0xF0, 0x45, 0x4D, 0xC6, 0x97, 0x1A, 0xBA, 0xE7, 0xAD, 0xFB, 0x37, 0x89,
    0x99, 0x88, 0x82, 0x65, 0xAE, 3, 0xAF, 0x92, 0xDE, 0x3A, 0x0E, 0xF1, 0x63,
    0x66, 0x8C, 0x63, 0xE5, 0x9B, 0x9D, 0x5F]

def p256GR : Bytes :=
  [4, 0xE2, 0x53, 0x4A, 0x35, 0x32, 0xD0, 0x8F, 0xBB, 0xA0, 0x2D, 0xDE, 0x65,
    0x9E, 0xE6, 0x2B, 0xD0, 3, 0x1F, 0xE2, 0xDB, 0x78, 0x55, 0x96, 0xEF, 0x50,
    0x93, 2, 0x44, 0x6B, 3, 8, 0x52, 0xE0, 0xF1, 0x57, 0x5A, 0x4C, 0x63, 0x3C,
    0xC7, 0x19, 0xDF, 0xEE, 0x5F, 0xDA, 0x86, 0x2D, 0x76, 0x4E, 0xFC, 0x96,
    0xC3, 0xF3, 0x0E, 0xE0, 5, 0x5C, 0x42, 0xC2, 0x3F, 0x18, 0x4E, 0xD8, 0xC6]

def p256GI : Bytes :=
  [2, 0x51, 0x59, 0x0B, 0x7A, 0x51, 0x51, 0x40, 0xD2, 0xD7, 0x84, 0xC8, 0x56,
    8, 0x66, 0x8F, 0xDF, 0xEF, 0x8C, 0x82, 0xFD, 0x1F, 0x5B, 0xE5, 0x24, 0x21,
    0x55, 0x4A, 0x0D, 0xC3, 0xD0, 0x33, 0xED]

def p256CredR : Bytes :=
  [0xA1, 8, 0xA1, 1, 0xA5, 1, 2, 2, 5, 0x20, 1, 0x21, 0x58, 0x20, 0xE2, 0x53,
    0x4A, 0x35, 0x32, 0xD0, 0x8F, 0xBB, 0xA0, 0x2D, 0xDE, 0x65, 0x9E, 0xE6,
    0x2B, 0xD0, 3, 0x1F, 0xE2, 0xDB, 0x78, 0x55, 0x96, 0xEF, 0x50, 0x93, 2,
    0x44, 0x6B, 3, 8, 0x52, 0x22, 0x58, 0x20, 0xE0, 0xF1, 0x57, 0x5A, 0x4C,
    0x63, 0x3C, 0xC7, 0x19, 0xDF, 0xEE, 0x5F, 0xDA, 0x86, 0x2D, 0x76, 0x4E,
    0xFC, 0x96, 0xC3, 0xF3, 0x0E, 0xE0, 5, 0x5C, 0x42, 0xC2, 0x3F, 0x18, 0x4E,
    0xD8, 0xC6]

def p256CredI : Bytes :=
  [0xA1, 8, 0xA1, 1, 0xA5, 1, 2, 2, 0x29, 0x20, 1, 0x21, 0x58, 0x20, 0x51,
    0x59, 0x0B, 0x7A, 0x51, 0x51, 0x40, 0xD2, 0xD7, 0x84, 0xC8, 0x56, 8, 0x66,
    0x8F, 0xDF, 0xEF, 0x8C, 0x82, 0xFD, 0x1F, 0x5B, 0xE5, 0x24, 0x21, 0x55,
    0x4A, 0x0D, 0xC3, 0xD0, 0x33, 0xED, 0x22, 0x58, 0x20, 0xE0, 0xC1, 0x7D,
    0xA8, 0x90, 0x4A, 0x72, 0x7D, 0x8A, 0xE1, 0xBF, 0x36, 0xBF, 0x8A, 0x79,
    0x26, 0x0D, 1, 0x2F, 0, 0xD4, 0xD8, 8, 0x88, 0xD1, 0xD0, 0xBB, 0x44, 0xFD,
    0xA1, 0x6D, 0xA4]

def p256Message1 : Bytes :=
  [3, 2, 0x58, 0x21, 2, 0x7C, 0xF2, 0x7B, 0x18, 0x8D, 3, 0x4F, 0x7E, 0x8A,
    0x52, 0x38, 3, 4, 0xB5, 0x1A, 0xC3, 0xC0, 0x89, 0x69, 0xE2, 0x77, 0xF2,
    0x1B, 0x35, 0xA6, 0x0B, 0x48, 0xFC, 0x47, 0x66, 0x99, 0x78, 0x0C]

def p256HashMessage1 : Bytes :=
  [0x33, 0x91, 0x34, 0xF8, 0xB0, 0x37, 0x1E, 0xBF, 0xBD, 0x69, 0xD7, 0xDD,
    0x31, 0xD3, 0x25, 0x69, 0xFB, 0x66, 0x1C, 0x48, 0xF5, 0x8E, 0x57, 0x96,
    0x7A, 0x84, 0xB1, 0x4F, 0xEC, 0xCE, 0xD3, 0xA0]

def p256Th2 : Bytes :=
  [0x10, 0x7E, 0xEE, 0xB3, 0x2F, 0x0C, 0x71, 0x9D, 0x16, 0xE0, 0, 0xEE, 0xD9,
    0xDE, 0x97, 0x2B, 7, 0xF5, 0x5B, 0x9F, 0x8A, 0xE5, 0x49, 0x5A, 0xDE, 0x7E,
    0xF7, 0x5F, 0x8B, 0x7A, 0x22, 0xFD]

def p256Prk2e : Bytes :=
  [0x21, 0x47, 7, 0xCF, 0x84, 0xB5, 0xB2, 0xAD, 0x5D, 0x85, 0x38, 0x8D, 0x2C,
    0xB8, 0xFA, 0x44, 0x83, 0xD2, 2, 0x2C, 0x71, 9, 0x93, 0x58, 0xBD, 0x0C,
    0x7A, 0xB9, 0xE0, 0x66, 0xA2, 0x31]

def p256Prk3e2m : Bytes :=
  [0xBC, 0xDB, 0x74, 0xC3, 0x6D, 0x62, 0xA6, 0xE1, 0xA2, 0xE8, 0xA8, 0x95,
    0xA7, 0xA1, 0x48, 0x3B, 0x61, 0xE6, 0x15, 0xB7, 0x32, 0xCC, 0xB8, 0xB8,
    0xBF, 0x56, 0xD6, 0xEE, 0x6D, 0xC9, 0x75, 0xFA]

def p256Mac2 : Bytes :=
  [0xC1, 0xE2, 0x25, 0x30, 0xB2, 0xBC, 0x12, 0x71]

def p256Keystream2 : Bytes :=
  [0xBA, 0x48, 0x15, 0x16, 0xDA, 0x5E, 0xE1, 0x63, 0x5D, 0xFC]

def p256Ciphertext2 : Bytes :=
  [0xBF, 0, 0xD4, 0xF4, 0xFF, 0x6E, 0x53, 0xDF, 0x4F, 0x8D]

def p256Message2 : Bytes :=
  [0x58, 0x2B, 2, 0x5E, 0xCB, 0xE4, 0xD1, 0xA6, 0x33, 0x0A, 0x44, 0xC8, 0xF7,
    0xEF, 0x95, 0x1D, 0x4B, 0xF1, 0x65, 0xE6, 0xC6, 0xB7, 0x21, 0xEF, 0xAD,
    0xA9, 0x85, 0xFB, 0x41, 0x66, 0x1B, 0xC6, 0xE7, 0xFD, 0x6C, 0xBF, 0, 0xD4,
    0xF4, 0xFF, 0x6E, 0x53, 0xDF, 0x4F, 0x8D, 5]

def p256Th3 : Bytes :=
  [0x66, 0x33, 0x2B, 0xC2, 0x1D, 0x5C, 0xDB, 0xBD, 0xCB, 0x82, 0x75, 0x74,
    0x6A, 0xD8, 0x8F, 0x0E, 0x38, 0x3A, 0x78, 0x7C, 0x9D, 0x14, 0xF6, 0xD3,
    0x37, 0xB6, 0xFC, 0x1B, 0xF8, 6, 0x3D, 0x18]

def p256Prk4x3m : Bytes :=
  [0x25, 0x64, 0x59, 0x32, 0x1C, 0xCA, 0x71, 0x14, 0x7B, 0xC4, 0x52, 0xBD,
    0x6B, 0x17, 0x27, 0xA2, 0x15, 0x98, 1, 0xF6, 3, 0x4A, 0x1F, 0xDF, 0x83,
    0x7D, 0x23, 0x4A, 9, 0x40, 0x55, 0x4B]

def p256Mac3 : Bytes :=
  [0xED, 0x78, 0xFB, 0x67, 0x92, 0xCE, 0x9C, 0x7C]

def p256Plaintext3 : Bytes :=
  [0x29, 0x48, 0xED, 0x78, 0xFB, 0x67, 0x92, 0xCE, 0x9C, 0x7C]

def p256K3 : Bytes :=
  [0x64, 0x9C, 0x33, 0xA5, 0xF2, 0x12, 0x35, 0xDC, 0x99, 0x88, 0xA8, 0xB7,
    0xD4, 0x5A, 0x6C, 0xA9]

def p256Iv3 : Bytes :=
  [0xCF, 0x20, 0xB9, 0xA2, 0x92, 0x98, 0xDF, 0x34, 0x8B, 0xE3, 0xE4, 0xC6,
    0xDC]

def p256Ciphertext3 : Bytes :=
  [0xC8, 0x24, 0x17, 0xA0, 0x8B, 0x61, 0xDA, 0x6F, 0x24, 0x53, 0x9E, 0x71,
    0xB7, 0xB4, 0x68, 0xF6, 0xF5, 0x2D]

def p256Message3 : Bytes :=
  [0x52, 0xC8, 0x24, 0x17, 0xA0, 0x8B, 0x61, 0xDA, 0x6F, 0x24, 0x53, 0x9E,
    0x71, 0xB7, 0xB4, 0x68, 0xF6, 0xF5, 0x2D]

def p256Th4 : Bytes :=
  [0xEC, 0x3C, 0x98, 4, 0xF4, 0xC4, 0xCB, 0xFC, 0x23, 2, 0x91, 0x20, 0xC3,
    0x8D, 0xF3, 0xD5, 0xDF, 0x4A, 0xA5, 0xB1, 0xA0, 0x9B, 0x8B, 0x57, 0x65,
    0x66, 0xB6, 0x78, 0x2C, 0xB4, 0xA8, 0x48]

def p256IdCredR : Bytes :=
  [0xA1, 4, 5]

def p256IdCredI : Bytes :=
  [0xA1, 4, 0x29]

def p256Records : EdhocRecords where
  hash :=
    [ (p256Message1, p256HashMessage1),
      (canonicalCbor.bstr p256HashMessage1 ++ canonicalCbor.bstr p256GY ++
        canonicalCbor.int32 5, p256Th2),
      (canonicalCbor.bstr p256Th2 ++ canonicalCbor.bstr p256Ciphertext2,
        p256Th3),
      (canonicalCbor.bstr p256Th3 ++ canonicalCbor.bstr p256Ciphertext3,
        p256Th4) ]
  hkdfExtract :=
    [ (([], p256GXy), p256Prk2e),
      ((p256Prk2e, p256GRx), p256Prk3e2m),
      ((p256Prk3e2m, p256GIy), p256Prk4x3m) ]
  hkdfExpand :=
    [ okmRecord p256Prk3e2m p256Th2 mac2Label (p256IdCredR ++ p256CredR)
        p256Mac2,
      okmRecord p256Prk2e p256Th2 keystream2Label [] p256Keystream2,
      okmRecord p256Prk4x3m p256Th3 mac3Label (p256IdCredI ++ p256CredI)
        p256Mac3,
      okmRecord p256Prk3e2m p256Th3 k3Label [] p256K3,
      okmRecord p256Prk3e2m p256Th3 iv3Label [] p256Iv3 ]
  sharedSecret := []
  aead :=
    [ ciphertextRecord p256K3 p256Iv3 p256Th3 p256Plaintext3
        p256Ciphertext3 ]
  sign := []

theorem p256Records_lengths : p256Records.LengthsRight where
  aead := by decide +kernel
  hash := by decide +kernel
  hkdfExtract := by decide +kernel
  hkdfExpand := by decide +kernel
  sign := by decide

def p256Platform : EdhocPlatform where
  crypto :=
    { EdhocWrapper.ofRecords p256Records p256Records_lengths with
      sharedSecretDerive := fun alg sk pk =>
        (sharedSecretDerive pointLibraries alg sk pk).toOption }
  cbor := canonicalMapCbor
  zcbor := canonicalZcbor

def p256Initiator : InitiatorContext where
  msg4 := false
  cI := .int 12
  method := 3
  suitesI := [2]
  ead1 := []
  ead3 := []
  idCredI := p256IdCredI
  credI := p256CredI
  gX := p256GX
  x := smallKey 2
  i := smallKey 5
  skI := []
  pkI := []

def p256InitiatorBuffers : InitiatorBuffers where
  credRArray := [ ⟨p256IdCredR, p256CredR, [], p256GR, [], []⟩ ]
  ead2Len := 256
  ead4Len := 256

def p256Responder : ResponderContext where
  msg4 := false
  cR := .int 5
  suitesR := [2]
  gY := p256GY
  y := smallKey 3
  r := smallKey 4
  ead2 := []
  ead4 := []
  idCredR := p256IdCredR
  credR := p256CredR
  skR := []
  pkR := []

def p256ResponderBuffers : ResponderBuffers where
  credIArray := [ ⟨p256IdCredI, p256CredI, [], p256GI, [], []⟩ ]
  ead1Len := 256
  ead3Len := 256

def p256InitiatorOutput : InitiatorOutput where
  ead2 := []
  ead4 := none
  prk4x3m := p256Prk4x3m
  th4 := p256Th4

def p256ResponderOutput : ResponderOutput where
  ead1 := none
  ead3 := []
  prk4x3m := p256Prk4x3m
  th4 := p256Th4

/-- What is computed in the exchange. -/
structure P256Exchange : Prop where
  initiator :
    exec (edhocInitiatorRun p256Platform v1Stack p256Initiator
        p256InitiatorBuffers) ⟨[p256Message2], []⟩ =
      (.ok p256InitiatorOutput, ⟨[], [p256Message1, p256Message3]⟩)
  responder :
    exec (edhocResponderRun p256Platform v1Stack p256Responder
        p256ResponderBuffers) ⟨[p256Message1, p256Message3], []⟩ =
      (.ok p256ResponderOutput, ⟨[], [p256Message2]⟩)
  decrypts : ∀ record ∈ p256Records.aead,
    p256Platform.crypto.aeadDecrypt record.ciphertext record.key record.nonce
        record.aad record.tagLen = some record.plaintext
  ephemeralI :
    secp256r1.compressPoint (-multiple (smallKey 2) basePoint) = some p256GX
  ephemeralR :
    secp256r1.compressPoint (multiple (smallKey 3) basePoint) = some p256GY
  staticI :
    secp256r1.compressPoint (multiple (smallKey 5) basePoint) = some p256GI
  staticR :
    secp256r1.encodePoint (multiple (smallKey 4) basePoint) = some p256GR

section Exchange

variable (exchange : P256Exchange)

include exchange

theorem p256_aeadInverts : p256Platform.crypto.AeadInverts :=
  @CryptoWrapper.ofRecords_aeadInverts [] p256Records.aead
    p256Records_lengths.aead exchange.decrypts

theorem p256_delivered :
    Delivered p256Platform v1Stack v1Stack p256Initiator p256InitiatorBuffers
      p256Responder p256ResponderBuffers p256InitiatorOutput
      p256ResponderOutput :=
  ⟨[p256Message2], [p256Message1, p256Message3], ⟨[], exchange.initiator⟩,
    ⟨[], exchange.responder⟩⟩

theorem p256_matchingKeys :
    MatchingKeys p256Platform (IsKeyPair pointPsa) .p256 p256Initiator
      p256InitiatorBuffers p256Responder p256ResponderBuffers where
  ephemeralI :=
    ⟨rfl, by decide, _, exchange.ephemeralI, xCoordinate_neg _⟩
  ephemeralR := ⟨rfl, by decide, _, exchange.ephemeralR, rfl⟩
  staticI := by
    intro _ received retrieved _ found
    obtain ⟨other, isOther, isKey⟩ :=
      retrieveCred_local (fun _ _ _ => rfl) (fun _ _ _ => rfl) found
    simp only [p256ResponderBuffers, List.mem_singleton] at isOther
    subst isOther
    rw [staticDhKey_compressed exchange.staticI, Except.ok.injEq] at isKey
    rw [← isKey]
    exact ⟨rfl, by decide, _, exchange.staticI, rfl⟩
  staticR := by
    intro _ received retrieved _ found
    obtain ⟨other, isOther, isKey⟩ :=
      retrieveCred_local (fun _ _ _ => rfl) (fun _ _ _ => rfl) found
    simp only [p256InitiatorBuffers, List.mem_singleton] at isOther
    subst isOther
    obtain ⟨Q, key, extracted, compressed, sameX⟩ :=
      staticDhKey_uncompressed exchange.staticR
    rw [extracted, Except.ok.injEq] at isKey
    rw [← isKey]
    exact ⟨rfl, by decide, Q, compressed, sameX⟩

end Exchange

theorem p256_exchange : P256Exchange := by
  constructor <;> decide +kernel

theorem edhocP256_keysAgree_small :
    p256InitiatorOutput.prk4x3m = p256ResponderOutput.prk4x3m ∧
      p256InitiatorOutput.th4 = p256ResponderOutput.th4 :=
  edhocP256_keysAgree p256Platform pointLibraries pointMbedtls rfl
    pointMbedtls_documented (fun _ _ _ => rfl) canonicalZcbor_inverts
    (p256_aeadInverts p256_exchange) v1Stack v1Stack p256Initiator
    p256InitiatorBuffers p256Responder p256ResponderBuffers
    ⟨by decide, trivial, by decide⟩ (by decide) _ rfl (by decide)
    (p256_matchingKeys p256_exchange) p256InitiatorOutput p256ResponderOutput
    (p256_delivered p256_exchange)

end UoscoreUedhoc.Edhoc

import UoscoreUedhoc.Common.External
import UoscoreUedhoc.Oscore.Option

/-!
# CBOR structures and protection

The three CBOR structures of OSCORE (`oscore_hkdf_info.c`, `aad.c` and the
`Enc_structure` of `oscore_cose.c`) and the COSE operations over the last one.
-/

namespace UoscoreUedhoc.Oscore

open UoscoreUedhoc

/-! ## Algorithms -/

/-- `enum AEAD_algorithm`. -/
inductive AeadAlgorithm where
  | oscoreAesCcm16_64_128
  | other (value : Int)
  deriving DecidableEq, Repr

def AeadAlgorithm.toInt : AeadAlgorithm → Int
  | .oscoreAesCcm16_64_128 => 10
  | .other value => value

/-- `enum hkdf`. -/
inductive Hkdf where
  | oscoreSha256
  | other (value : Int)
  deriving DecidableEq, Repr

/-! ## Key derivation info -/

/-- `enum derive_type`. -/
inductive DeriveType where
  | key
  | iv
  deriving DecidableEq, Repr

/-- `"Key"` and `"IV"`. -/
def DeriveType.label : DeriveType → Bytes
  | .key => [0x4B, 0x65, 0x79]
  | .iv => [0x49, 0x56]

def DeriveType.len : DeriveType → Nat
  | .key => 16
  | .iv => 13

/-- What `oscore_create_hkdf_info` encodes. -/
def hkdfInfo (cbor : CborEncoder) (id idContext : Bytes)
    (aeadAlg : AeadAlgorithm) (type : DeriveType) : Bytes :=
  cbor.list
    [cbor.bstr id,
      if idContext.length = 0 then cbor.nil else cbor.bstr idContext,
      cbor.int32 aeadAlg.toInt,
      cbor.tstr type.label,
      cbor.uint32 type.len]

/-- `oscore_create_hkdf_info` into a buffer of `MAX_INFO_LEN` bytes. -/
def oscoreCreateHkdfInfo (cbor : CborEncoder) (id idContext : Bytes)
    (aeadAlg : AeadAlgorithm) (type : DeriveType) : Outcome Bytes :=
  let info := hkdfInfo cbor id idContext aeadAlg type
  if info.length ≤ maxInfoLen then .ok info else fail .cborEncodingError

/-! ## Additional authenticated data -/

/-- The `aad_array` that `create_aad` encodes, with the class I options as
`opts`. -/
def aadArray (cbor : CborEncoder) (aeadAlg : AeadAlgorithm)
    (kid piv opts : Bytes) : Bytes :=
  cbor.list
    [cbor.uint32 1,
      cbor.list [cbor.int32 aeadAlg.toInt],
      cbor.bstr kid,
      cbor.bstr piv,
      cbor.bstr opts]

/-- `create_aad` with the output array `out`: the result and the array it
leaves behind.  The length of `out` is both the capacity of the buffer and what
the length of the AAD replaces. -/
def createAad (cbor : CborEncoder) (options : List OCoapOption)
    (aeadAlg : AeadAlgorithm) (kid piv out : Bytes) :
    Outcome Unit × Bytes :=
  let encodedOptILen := encodedOptionLen .i 0 options
  let optsI : Outcome Bytes := do
    checkBufferSize maxIOptions encodedOptILen
    encodeOptions .i 0 encodedOptILen options
  match optsI with
  | .error fault => (.error fault, out)
  | .ok opts =>
      match cbor.encodeInto (aadArray cbor aeadAlg kid piv opts) out with
      | (true, aad) => (.ok (), aad)
      | (false, rest) => (fail .unexpectedResultFromExtLib, rest)

/-- There are no class I options, so `create_aad` encodes an empty string for
them whatever the packet carries. -/
theorem createAad_eq (cbor : CborEncoder) (options : List OCoapOption)
    (aeadAlg : AeadAlgorithm) (kid piv out : Bytes) :
    createAad cbor options aeadAlg kid piv out =
      if (aadArray cbor aeadAlg kid piv []).length ≤ out.length then
        (.ok (), aadArray cbor aeadAlg kid piv [])
      else
        (fail .unexpectedResultFromExtLib,
          cbor.residue (aadArray cbor aeadAlg kid piv []) out) := by
  unfold createAad CborEncoder.encodeInto
  simp only [encodedOptionLen_i, encodeOptions_i, checkBufferSize_of_le,
    Nat.zero_le, outcome_ok_bind]
  by_cases fits :
      (aadArray cbor aeadAlg kid piv []).length ≤ out.length
  · simp only [if_pos fits]
  · simp only [if_neg fits]

/-! ## Encryption -/

/-- `"Encrypt0"`. -/
def encrypt0 : Bytes := [0x45, 0x6E, 0x63, 0x72, 0x79, 0x70, 0x74, 0x30]

def encrypt0EncodingOverhead : Nat := 16

/-- What `create_enc_structure` encodes. -/
def encStructure (cbor : CborEncoder) (externalAad : Bytes) : Bytes :=
  cbor.list [cbor.tstr encrypt0, cbor.bstr [], cbor.bstr externalAad]

/-- The associated data of `oscore_cose_decrypt` and `oscore_cose_encrypt`:
`create_enc_structure` into a buffer of `aad_len` bytes. -/
def coseAad (cbor : CborEncoder) (externalAad : Bytes) : Outcome Bytes := do
  let aadLen := externalAad.length + encrypt0EncodingOverhead
  checkBufferSize maxAadLen aadLen
  let encoding := encStructure cbor externalAad
  if encoding.length ≤ aadLen then .ok encoding else fail .cborEncodingError

/-- `oscore_cose_decrypt`. -/
def oscoreCoseDecrypt (platform : Platform)
    (ciphertext nonce recipientAad key : Bytes) : Outcome Bytes := do
  let aad ← coseAad platform.toCborEncoder recipientAad
  tryExpect (platform.aeadDecrypt ciphertext key nonce aad authTagLen)

/-- `oscore_cose_encrypt`. -/
def oscoreCoseEncrypt (platform : Platform)
    (plaintext nonce senderAad key : Bytes) : Outcome Bytes := do
  let aad ← coseAad platform.toCborEncoder senderAad
  tryExpect (platform.aeadEncrypt plaintext key nonce aad authTagLen)

theorem coseAad_eq_ok {cbor : CborEncoder} {externalAad aad : Bytes} :
    coseAad cbor externalAad = .ok aad ↔
      externalAad.length + encrypt0EncodingOverhead ≤ maxAadLen ∧
        (encStructure cbor externalAad).length ≤
          externalAad.length + encrypt0EncodingOverhead ∧
        aad = encStructure cbor externalAad := by
  unfold coseAad fail
  simp only [outcome_bind_eq_ok, checkBufferSize_eq_ok]
  constructor
  · rintro ⟨_, bounded, encoded⟩
    split at encoded
    · rename_i fits
      exact ⟨bounded, fits, (Except.ok.inj encoded).symm⟩
    · cases encoded
  · rintro ⟨bounded, fits, rfl⟩
    exact ⟨(), bounded, if_pos fits⟩

theorem oscoreCoseDecrypt_eq_ok {platform : Platform}
    {ciphertext nonce recipientAad key plaintext : Bytes} :
    oscoreCoseDecrypt platform ciphertext nonce recipientAad key =
        .ok plaintext ↔
      ∃ aad, coseAad platform.toCborEncoder recipientAad = .ok aad ∧
        platform.aeadDecrypt ciphertext key nonce aad authTagLen =
          some plaintext := by
  unfold oscoreCoseDecrypt
  simp only [outcome_bind_eq_ok, tryExpect_eq_ok]

theorem oscoreCoseEncrypt_eq_ok {platform : Platform}
    {plaintext nonce senderAad key ciphertext : Bytes} :
    oscoreCoseEncrypt platform plaintext nonce senderAad key =
        .ok ciphertext ↔
      ∃ aad, coseAad platform.toCborEncoder senderAad = .ok aad ∧
        platform.aeadEncrypt plaintext key nonce aad authTagLen =
          some ciphertext := by
  unfold oscoreCoseEncrypt
  simp only [outcome_bind_eq_ok, tryExpect_eq_ok]

end UoscoreUedhoc.Oscore

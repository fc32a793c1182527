import UoscoreUedhoc.Edhoc.Plaintext

/-!
# Ciphertexts

`ciphertext.c` and `associated_data_encode.c`.  `CIPHERTEXT_2` is the plaintext
under a key stream, the other two are protected with the AEAD of the suite.
The plaintext of `CIPHERTEXT_4` is the application data alone.
-/

namespace UoscoreUedhoc.Edhoc

open UoscoreUedhoc

/-- `enum ciphertext`. -/
inductive Ciphertext where
  | ciphertext2
  | ciphertext3
  | ciphertext4
  deriving DecidableEq, Repr

/-! ## Labels -/

/-- The text `"KEYSTREAM_2"`. -/
def keystream2Label : Bytes :=
  [0x4B, 0x45, 0x59, 0x53, 0x54, 0x52, 0x45, 0x41, 0x4D, 0x5F, 0x32]

/-- The text `"K_3"`. -/
def k3Label : Bytes :=
  [0x4B, 0x5F, 0x33]

/-- The text `"IV_3"`. -/
def iv3Label : Bytes :=
  [0x49, 0x56, 0x5F, 0x33]

/-- The text `"EDHOC_K_4"`. -/
def edhocK4Label : Bytes :=
  [0x45, 0x44, 0x48, 0x4F, 0x43, 0x5F, 0x4B, 0x5F, 0x34]

/-- The text `"EDHOC_IV_4"`. -/
def edhocIv4Label : Bytes :=
  [0x45, 0x44, 0x48, 0x4F, 0x43, 0x5F, 0x49, 0x56, 0x5F, 0x34]

/-- The text `"Encrypt0"`. -/
def encrypt0Context : Bytes :=
  [0x45, 0x6E, 0x63, 0x72, 0x79, 0x70, 0x74, 0x30]

/-- `xor_arrays`. -/
def xorArrays (left right : Bytes) : Bytes :=
  List.zipWith (· ^^^ ·) left right

theorem xorArrays_length (left right : Bytes) :
    (xorArrays left right).length = min left.length right.length := by
  simp [xorArrays]

/-- The same key stream takes itself away. -/
theorem xorArrays_cancel {left right : Bytes}
    (sameLength : left.length = right.length) :
    xorArrays (xorArrays left right) right = left := by
  induction left generalizing right with
  | nil =>
      simp [xorArrays]
  | cons byte left inductionHypothesis =>
      cases right with
      | nil =>
          simp at sameLength
      | cons other right =>
          have tails : left.length = right.length := by
            simpa using sameLength
          have rest := inductionHypothesis tails
          simp only [xorArrays] at rest
          simp only [xorArrays, List.zipWith_cons_cons, rest,
            UInt8.xor_assoc, UInt8.xor_self, UInt8.xor_zero]

/-! ## Keys and associated data -/

/-- What `associated_data_encode` encodes. -/
def associatedData (cbor : CborMapEncoder) (th : Bytes) : Bytes :=
  cbor.list [cbor.tstr encrypt0Context, cbor.bstr [], cbor.bstr th]

section

variable (platform : EdhocPlatform)

/-- `associated_data_encode` into a buffer of `ASSOCIATED_DATA_DEFAULT_SIZE`
bytes. -/
def associatedDataEncode (th : Bytes) : Outcome Bytes :=
  cborEncode (associatedData platform.cbor th) associatedDataDefaultSize

/-- `key_gen`: key and initialisation vector. -/
def keyGen (ctxt : Ciphertext) (edhocHash : HashAlg) (prk th : Bytes)
    (keyLen ivLen : Nat) : Outcome (Bytes × Bytes) :=
  match ctxt with
  | .ciphertext2 => do
      let key ← okmCalc platform edhocHash prk th keystream2Label [] keyLen
      .ok (key, [])
  | .ciphertext3 => do
      let key ← okmCalc platform edhocHash prk th k3Label [] keyLen
      let iv ← okmCalc platform edhocHash prk th iv3Label [] ivLen
      .ok (key, iv)
  | .ciphertext4 => do
      let key ← edhocExporter platform edhocHash prk th edhocK4Label keyLen
      let iv ← edhocExporter platform edhocHash prk th edhocIv4Label ivLen
      .ok (key, iv)

/-- The length of the key for a text of the given length. -/
def keyLength (ctxt : Ciphertext) (suite : Suite) (textLen : Nat) : Nat :=
  match ctxt with
  | .ciphertext2 => textLen
  | .ciphertext3 | .ciphertext4 => getAeadKeyLen suite.edhocAead

/-! ## Decryption -/

/-- The part of `ciphertext_decrypt_split` before the plaintext is split. -/
def ciphertextDecrypt (ctxt : Ciphertext) (suite : Suite)
    (prk th ciphertext : Bytes) : Outcome Bytes := do
  let keyLen := keyLength ctxt suite ciphertext.length
  checkBufferSize ciphertext2DefaultSize keyLen
  let ivLen := getAeadIvLen suite.edhocAead
  checkBufferSize aeadIvDefaultSize ivLen
  let (key, iv) ← keyGen platform ctxt suite.edhocHash prk th keyLen ivLen
  let associatedData ← associatedDataEncode platform th
  let tagLen := getAeadMacLen suite.edhocAead
  match ctxt with
  | .ciphertext2 => do
      checkBufferSize plaintextDefaultSize ciphertext.length
      .ok (xorArrays ciphertext key)
  | .ciphertext3 | .ciphertext4 => do
      checkBufferSize plaintextDefaultSize
        (uint32 (ciphertext.length - tagLen))
      tryExpect
        (platform.crypto.aeadDecrypt ciphertext key iv associatedData tagLen)

/-- `ciphertext_decrypt_split` with `CIPHERTEXT2` or `CIPHERTEXT3`. -/
def ciphertextDecryptSplit (ctxt : Ciphertext) (suite : Suite)
    (eadLen : Nat) (prk th ciphertext : Bytes) : Outcome SplitPlaintext := do
  let plaintext ← ciphertextDecrypt platform ctxt suite prk th ciphertext
  plaintextSplit platform plaintext eadLen

/-- `ciphertext_decrypt_split` with `CIPHERTEXT4`. -/
def ciphertext4DecryptSplit (suite : Suite) (eadLen : Nat)
    (prk th ciphertext : Bytes) : Outcome Bytes := do
  let plaintext ←
    ciphertextDecrypt platform .ciphertext4 suite prk th ciphertext
  if plaintext.length ≠ 0 then
    decodeByteString platform plaintext eadLen
  else
    .ok []

/-! ## Encryption -/

/-- The part of `ciphertext_gen` that encodes the plaintext. -/
def plaintextEncode (ctxt : Ciphertext) (idCred signatureOrMac ead : Bytes) :
    Outcome Bytes := do
  checkBufferSize sgnOrMacDefaultSize ((signatureOrMac.length + 2) % 2 ^ 32)
  let signatureOrMacEnc ←
    encodeByteString platform signatureOrMac (signatureOrMac.length + 2)
  let plaintext ←
    match ctxt with
    | .ciphertext2 | .ciphertext3 => do
        let kid ← idCred2Kid platform idCred
        let idCredX := if kid.length ≠ 0 then kid else idCred
        let idCredX ← memcpyS plaintextDefaultSize idCredX idCredX.length
        let signatureOrMacEnc ←
          memcpyS (plaintextDefaultSize - idCredX.length) signatureOrMacEnc
            signatureOrMacEnc.length
        .ok (idCredX ++ signatureOrMacEnc)
    | .ciphertext4 => .ok []
  if 0 < ead.length then do
    let ead ←
      memcpyS (plaintextDefaultSize - plaintext.length) ead ead.length
    .ok (plaintext ++ ead)
  else
    .ok plaintext

/-- The part of `ciphertext_gen` that encrypts the plaintext, into a buffer of
`PLAINTEXT_DEFAULT_SIZE` bytes. -/
def ciphertextEncrypt (ctxt : Ciphertext) (suite : Suite)
    (prk th plaintext : Bytes) : Outcome Bytes := do
  let keyLen := keyLength ctxt suite plaintext.length
  checkBufferSize ciphertext2DefaultSize keyLen
  let ivLen := getAeadIvLen suite.edhocAead
  checkBufferSize aeadIvDefaultSize ivLen
  let (key, iv) ← keyGen platform ctxt suite.edhocHash prk th keyLen ivLen
  let tagLen := getAeadMacLen suite.edhocAead
  checkBufferSize macDefaultSize tagLen
  match ctxt with
  | .ciphertext2 => .ok (xorArrays plaintext key)
  | .ciphertext3 | .ciphertext4 => do
      let aad ← associatedDataEncode platform th
      let ciphertext ←
        tryExpect
          (platform.crypto.aeadEncrypt plaintext key iv aad tagLen)
      memcpy plaintextDefaultSize ciphertext

/-- `ciphertext_gen`. -/
def ciphertextGen (ctxt : Ciphertext) (suite : Suite)
    (idCred signatureOrMac ead prk th : Bytes) : Outcome Bytes := do
  let plaintext ← plaintextEncode platform ctxt idCred signatureOrMac ead
  ciphertextEncrypt platform ctxt suite prk th plaintext

end

end UoscoreUedhoc.Edhoc

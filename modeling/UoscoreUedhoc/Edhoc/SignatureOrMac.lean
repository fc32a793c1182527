import UoscoreUedhoc.Edhoc.KeySchedule

/-!
# Signatures and MACs

`signature_or_mac_msg.c` and `cose_sig_structure_encode`.  A party that
authenticates with a static DH key sends `MAC_2` or `MAC_3` itself, the others
a signature over it.

The verification writes the MAC to the front of a buffer of `SHA_DEFAULT_SIZE`
bytes on the stack and compares as many bytes of this buffer as the peer sent.
What the buffer holds behind the MAC is whatever the stack held before.
-/

namespace UoscoreUedhoc.Edhoc

open UoscoreUedhoc

/-- `memcpy` to a place that has room for `size` bytes. -/
def memcpy (size : Nat) (source : Bytes) : Outcome Bytes :=
  if source.length ≤ size then .ok source else undefinedBehaviour

theorem memcpy_eq_ok {size : Nat} {source copied : Bytes} :
    memcpy size source = .ok copied ↔
      source.length ≤ size ∧ copied = source := by
  unfold memcpy
  split
  · rename_i fits
    simp [fits, eq_comm]
  · rename_i tooLong
    simp [tooLong, undefinedBehaviour]

/-- `memcmp` of the first `length` bytes of two buffers. -/
def memcmpEqual (left right : Bytes) (length : Nat) : Outcome Bool :=
  if left.length < length ∨ right.length < length then
    undefinedBehaviour
  else
    .ok (decide (left.take length = right.take length))

theorem memcmpEqual_of_le {left right : Bytes} {length : Nat}
    (leftLong : length ≤ left.length) (rightLong : length ≤ right.length) :
    memcmpEqual left right length =
      .ok (decide (left.take length = right.take length)) := by
  unfold memcmpEqual
  rw [if_neg (by omega)]

/-- The text `"Signature1"`. -/
def signature1Context : Bytes :=
  [0x53, 0x69, 0x67, 0x6E, 0x61, 0x74, 0x75, 0x72, 0x65, 0x31]

/-- The contents of a buffer on the stack before anything is written to it. -/
abbrev Stack := Vector UInt8 shaDefaultSize

section

variable (platform : EdhocPlatform)

/-! ## Byte strings -/

/-- `encode_byte_string`. -/
def encodeByteString (input : Bytes) (outLen : Nat) : Outcome Bytes :=
  cborEncode (platform.cbor.bstr input) outLen

/-- `decode_byte_string`. -/
def decodeByteString (input : Bytes) (outLen : Nat) : Outcome Bytes := do
  let str ←
    tryExpect
      (Decoding.decode (Decoding.string platform.zcbor.bstr) 1 input)
  memcpyS outLen str.ptr str.len

/-! ## The MAC -/

/-- `mac`. -/
def mac (prk th idCred cred ead macLabel : Bytes) (staticDh : Bool)
    (suite : Suite) : Outcome Bytes := do
  let contextMacLen :=
    (idCred.length + cred.length + ead.length) % 2 ^ 32
  checkBufferSize contextMacDefaultSize contextMacLen
  let idCred ← memcpyS contextMacLen idCred idCred.length
  let cred ←
    memcpyS (uint32 (contextMacLen - idCred.length)) cred cred.length
  let ead ←
    memcpyS (uint32 (contextMacLen - idCred.length - cred.length)) ead
      ead.length
  let macLen :=
    if staticDh then
      suite.edhocMacLenStaticDh.toNat
    else
      getHashLen suite.edhocHash
  okmCalc platform suite.edhocHash prk th macLabel (idCred ++ cred ++ ead)
    macLen

/-! ## The signature -/

/-- What `cose_sig_structure_encode` encodes. -/
def sigStructure (context protected' externalAad payload : Bytes) : Bytes :=
  platform.cbor.list
    [platform.cbor.tstr context,
      platform.cbor.bstr protected',
      platform.cbor.bstr externalAad,
      platform.cbor.bstr payload]

/-- `signature_struct_gen` into a buffer of `SIGNATURE_STRUCT_DEFAULT_SIZE`
bytes. -/
def signatureStructGen (th idCred cred ead mac : Bytes) : Outcome Bytes := do
  let thEnc ← encodeByteString platform th (shaDefaultSize + 2)
  let tmpLen := (thEnc.length + cred.length + ead.length) % 2 ^ 32
  checkBufferSize (credDefaultSize + shaDefaultSize + adDefaultSize) tmpLen
  let tmp ←
    memcpy (credDefaultSize + shaDefaultSize + adDefaultSize)
      (thEnc ++ cred ++ ead)
  cborEncode (sigStructure platform signature1Context idCred tmp mac)
    signatureStructDefaultSize

/-! ## Both -/

/-- `signature_or_mac` with `GENERATE`. -/
def signatureOrMacGenerate (staticDh : Bool) (suite : Suite)
    (sk pk prk th idCred cred ead macLabel : Bytes) : Outcome Bytes := do
  let mac ← mac platform prk th idCred cred ead macLabel staticDh suite
  if staticDh then
    .ok mac
  else do
    let signatureStruct ←
      signatureStructGen platform th idCred cred ead mac
    tryExpect
      (platform.crypto.sign suite.edhocSign sk pk signatureStruct)

/-- `signature_or_mac` with `VERIFY`. -/
def signatureOrMacVerify (stack : Stack) (staticDh : Bool) (suite : Suite)
    (pk prk th idCred cred ead macLabel signatureOrMac : Bytes) :
    Outcome Unit := do
  checkBufferSize shaDefaultSize (getHashLen suite.edhocHash)
  let mac ← mac platform prk th idCred cred ead macLabel staticDh suite
  if staticDh then do
    let macBuf := mac ++ stack.toList.drop mac.length
    let equal ← memcmpEqual macBuf signatureOrMac signatureOrMac.length
    if equal then .ok () else fail .macAuthenticationFailed
  else do
    let signatureStruct ←
      signatureStructGen platform th idCred cred ead mac
    let result ←
      tryExpect
        (platform.crypto.verify suite.edhocSign pk signatureStruct
          signatureOrMac)
    if result then .ok () else fail .signatureAuthenticationFailed

end

/-! ## What the MAC is -/

section Mac

variable {platform : EdhocPlatform}

/-- The length that `mac` returns. -/
def macLength (staticDh : Bool) (suite : Suite) : Nat :=
  if staticDh then
    suite.edhocMacLenStaticDh.toNat
  else
    getHashLen suite.edhocHash

theorem mac_eq_ok {prk th idCred cred ead macLabel tag : Bytes}
    {staticDh : Bool} {suite : Suite} :
    mac platform prk th idCred cred ead macLabel staticDh suite = .ok tag ↔
      idCred.length + cred.length + ead.length ≤ contextMacDefaultSize ∧
        okmCalc platform suite.edhocHash prk th macLabel
          (idCred ++ cred ++ ead) (macLength staticDh suite) = .ok tag := by
  have small : contextMacDefaultSize < 2 ^ 32 := by decide
  unfold mac
  simp only [outcome_bind_eq_ok, checkBufferSize_eq_ok, memcpyS_eq_ok]
  constructor
  · intro run
    obtain ⟨_, fits, idCopy, ⟨idFits, _, rfl⟩, credCopy, ⟨credFits, _, rfl⟩,
      eadCopy, ⟨eadFits, _, rfl⟩, okm⟩ := run
    simp only [List.take_length] at credFits eadFits okm
    have noWrap : idCred.length + cred.length + ead.length <
        2 ^ 32 := by
      rw [uint32_of_nonneg (by omega) (by omega)] at credFits
      rw [uint32_of_nonneg (by omega) (by omega)] at eadFits
      omega
    rw [Nat.mod_eq_of_lt noWrap] at fits
    exact ⟨fits, okm⟩
  · intro run
    obtain ⟨fits, okm⟩ := run
    have noWrap : (idCred.length + cred.length + ead.length) % 2 ^ 32 =
        idCred.length + cred.length + ead.length :=
      Nat.mod_eq_of_lt (by omega)
    rw [noWrap]
    refine ⟨(), fits, idCred, ⟨by omega, Nat.le_refl _, by simp⟩, cred,
      ⟨?_, Nat.le_refl _, by simp⟩, ead, ⟨?_, Nat.le_refl _, by simp⟩, okm⟩
    · rw [uint32_of_nonneg (by omega) (by omega)]
      omega
    · rw [uint32_of_nonneg (by omega) (by omega)]
      omega

theorem mac_length {prk th idCred cred ead macLabel tag : Bytes}
    {staticDh : Bool} {suite : Suite}
    (run : mac platform prk th idCred cred ead macLabel staticDh suite =
      .ok tag) :
    tag.length = macLength staticDh suite :=
  okmCalc_length (mac_eq_ok.mp run).2

end Mac

end UoscoreUedhoc.Edhoc

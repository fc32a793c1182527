import UoscoreUedhoc.Common.Runtime

/-!
# The cryptographic wrapper and the CBOR encoder

The code calls two things it does not contain.  The functions of
`crypto_wrapper.c` are weak symbols over a cryptographic library that the
application selects, and the encoders under `src/cbor` are generated over the
zcbor runtime.  Both are parameters of this development.

Of the wrapper only the lengths of its outputs are assumed.  An encoder writes
the concatenation of the encodings of its fields when that fits into the
buffer; otherwise it fails and leaves some other bytes behind.
-/

namespace UoscoreUedhoc

/-! ## The wrapper -/

/-- The functions of `crypto_wrapper.c` that OSCORE uses.  `none` stands for an
unexpected result of the library below. -/
structure CryptoWrapper where
  /-- `hkdf_sha_256` of master secret, master salt and info. -/
  hkdfSha256 : Bytes → Bytes → Bytes → Nat → Option Bytes
  hkdfSha256_length :
    ∀ {secret salt info : Bytes} {outLen : Nat} {out : Bytes},
      hkdfSha256 secret salt info outLen = some out → out.length = outLen
  /-- `aead(ENCRYPT, ...)` of plaintext, key, nonce, associated data and tag
  length: the ciphertext with the tag behind it. -/
  aeadEncrypt : Bytes → Bytes → Bytes → Bytes → Nat → Option Bytes
  aeadEncrypt_length :
    ∀ {plaintext key nonce aad ciphertext : Bytes} {tagLen : Nat},
      aeadEncrypt plaintext key nonce aad tagLen = some ciphertext →
        ciphertext.length = plaintext.length + tagLen
  /-- `aead(DECRYPT, ...)` of ciphertext with tag, key, nonce, associated data
  and tag length. -/
  aeadDecrypt : Bytes → Bytes → Bytes → Bytes → Nat → Option Bytes
  aeadDecrypt_length :
    ∀ {ciphertext key nonce aad plaintext : Bytes} {tagLen : Nat},
      aeadDecrypt ciphertext key nonce aad tagLen = some plaintext →
        plaintext.length + tagLen = ciphertext.length

/-- Decryption takes encryption back. -/
def CryptoWrapper.AeadInverts (crypto : CryptoWrapper) : Prop :=
  ∀ {plaintext key nonce aad ciphertext : Bytes} {tagLen : Nat},
    crypto.aeadEncrypt plaintext key nonce aad tagLen = some ciphertext →
      crypto.aeadDecrypt ciphertext key nonce aad tagLen = some plaintext

/-- `TRY_EXPECT` around a call of an external library. -/
def tryExpect {α : Type} : Option α → Outcome α
  | some value => .ok value
  | none => fail .unexpectedResultFromExtLib

@[simp]
theorem tryExpect_eq_ok {α : Type} {result : Option α} {value : α} :
    tryExpect result = .ok value ↔ result = some value := by
  cases result with
  | none =>
      simp [tryExpect, fail]
  | some other =>
      simp [tryExpect]

theorem tryExpect_eq_error {α : Type} {result : Option α} {fault : Fault}
    (failed : tryExpect result = .error fault) :
    fault = .err .unexpectedResultFromExtLib := by
  cases result with
  | none =>
      simp only [tryExpect, fail, Except.error.injEq] at failed
      exact failed.symm
  | some value =>
      cases failed

/-! ## The encoder -/

/-- What the encoding functions of zcbor write for one item, and what a failing
encoder leaves in its buffer. -/
structure CborEncoder where
  listStart : Nat → Bytes
  listEnd : Nat → Bytes
  uint32 : Nat → Bytes
  int32 : Int → Bytes
  bstr : Bytes → Bytes
  tstr : Bytes → Bytes
  nil : Bytes
  residue : Bytes → Bytes → Bytes
  residue_length :
    ∀ encoding buffer : Bytes, (residue encoding buffer).length = buffer.length

namespace CborEncoder

variable (cbor : CborEncoder)

/-- A list of encoded items. -/
def list (items : List Bytes) : Bytes :=
  cbor.listStart items.length ++ items.flatten ++ cbor.listEnd items.length

/-- A generated `cbor_encode_...` function writing into `buffer`: its result
and the bytes it leaves there, cut to `payload_len_out` on success. -/
def encodeInto (encoding buffer : Bytes) : Bool × Bytes :=
  if encoding.length ≤ buffer.length then
    (true, encoding)
  else
    (false, cbor.residue encoding buffer)

/-- Longer byte strings have no shorter encodings, and no byte string has a
shorter one than `nil`. -/
structure LengthsMonotone : Prop where
  bstr : ∀ {shorter longer : Bytes}, shorter.length ≤ longer.length →
    (cbor.bstr shorter).length ≤ (cbor.bstr longer).length
  nil : ∀ value : Bytes, cbor.nil.length ≤ (cbor.bstr value).length

end CborEncoder

/-- Everything the code takes from outside. -/
structure Platform extends CryptoWrapper, CborEncoder

/-! ## A wrapper given by recorded calls -/

/-- A recorded call of `hkdf_sha_256`. -/
structure HkdfRecord where
  secret : Bytes
  salt : Bytes
  info : Bytes
  out : Bytes

/-- A recorded call of `aead`. -/
structure AeadRecord where
  plaintext : Bytes
  key : Bytes
  nonce : Bytes
  aad : Bytes
  tagLen : Nat
  ciphertext : Bytes

/-- A wrapper that answers exactly the recorded calls. -/
def CryptoWrapper.ofRecords
    (hkdf : List HkdfRecord) (aead : List AeadRecord)
    (lengths : ∀ record ∈ aead,
      record.ciphertext.length = record.plaintext.length + record.tagLen) :
    CryptoWrapper where
  hkdfSha256 secret salt info outLen :=
    (hkdf.find? fun record =>
      record.secret = secret ∧ record.salt = salt ∧ record.info = info ∧
        record.out.length = outLen).map HkdfRecord.out
  hkdfSha256_length := by
    intro secret salt info outLen out found
    obtain ⟨record, recorded, rfl⟩ := Option.map_eq_some_iff.mp found
    have same := List.find?_some recorded
    simp only [decide_eq_true_eq] at same
    exact same.2.2.2
  aeadEncrypt plaintext key nonce aad tagLen :=
    (aead.find? fun record =>
      record.plaintext = plaintext ∧ record.key = key ∧
        record.nonce = nonce ∧ record.aad = aad ∧
          record.tagLen = tagLen).map AeadRecord.ciphertext
  aeadEncrypt_length := by
    intro plaintext key nonce aad ciphertext tagLen found
    obtain ⟨record, recorded, rfl⟩ := Option.map_eq_some_iff.mp found
    have same := List.find?_some recorded
    simp only [decide_eq_true_eq] at same
    rw [← same.1, ← same.2.2.2.2]
    exact lengths record (List.mem_of_find?_eq_some recorded)
  aeadDecrypt ciphertext key nonce aad tagLen :=
    (aead.find? fun record =>
      record.ciphertext = ciphertext ∧ record.key = key ∧
        record.nonce = nonce ∧ record.aad = aad ∧
          record.tagLen = tagLen).map AeadRecord.plaintext
  aeadDecrypt_length := by
    intro ciphertext key nonce aad plaintext tagLen found
    obtain ⟨record, recorded, rfl⟩ := Option.map_eq_some_iff.mp found
    have same := List.find?_some recorded
    simp only [decide_eq_true_eq] at same
    rw [← same.1, ← same.2.2.2.2]
    exact (lengths record (List.mem_of_find?_eq_some recorded)).symm

/-- Recorded ciphertexts are decrypted when each record is found under its
own ciphertext. -/
theorem CryptoWrapper.ofRecords_aeadInverts
    {hkdf : List HkdfRecord} {aead : List AeadRecord}
    {lengths : ∀ record ∈ aead,
      record.ciphertext.length = record.plaintext.length + record.tagLen}
    (decrypts : ∀ record ∈ aead,
      (CryptoWrapper.ofRecords hkdf aead lengths).aeadDecrypt
          record.ciphertext record.key record.nonce record.aad
          record.tagLen = some record.plaintext) :
    (CryptoWrapper.ofRecords hkdf aead lengths).AeadInverts := by
  intro plaintext key nonce aad ciphertext tagLen encrypted
  obtain ⟨record, recorded, rfl⟩ := Option.map_eq_some_iff.mp encrypted
  have same := List.find?_some recorded
  simp only [decide_eq_true_eq] at same
  obtain ⟨rfl, rfl, rfl, rfl, rfl⟩ := same
  exact decrypts record (List.mem_of_find?_eq_some recorded)

/-- The wrapper with zeros for the key material it does not derive. -/
def CryptoWrapper.hkdfOrZeros (crypto : CryptoWrapper)
    (secret salt info : Bytes) (outLen : Nat) : Bytes :=
  (crypto.hkdfSha256 secret salt info outLen).getD (List.replicate outLen 0)

theorem CryptoWrapper.hkdfOrZeros_length {crypto : CryptoWrapper}
    {secret salt info out : Bytes} {outLen : Nat}
    (derived : some (crypto.hkdfOrZeros secret salt info outLen) = some out) :
    out.length = outLen := by
  rw [← Option.some.inj derived]
  unfold CryptoWrapper.hkdfOrZeros
  cases found : crypto.hkdfSha256 secret salt info outLen with
  | none =>
      exact List.length_replicate
  | some recorded =>
      exact crypto.hkdfSha256_length found

/-- And with zeros for the plaintexts it does not encrypt. -/
def CryptoWrapper.aeadOrZeros (crypto : CryptoWrapper)
    (plaintext key nonce aad : Bytes) (tagLen : Nat) : Bytes :=
  (crypto.aeadEncrypt plaintext key nonce aad tagLen).getD
    (List.replicate (plaintext.length + tagLen) 0)

theorem CryptoWrapper.aeadOrZeros_length {crypto : CryptoWrapper}
    {plaintext key nonce aad ciphertext : Bytes} {tagLen : Nat}
    (encrypted :
      some (crypto.aeadOrZeros plaintext key nonce aad tagLen) =
        some ciphertext) :
    ciphertext.length = plaintext.length + tagLen := by
  rw [← Option.some.inj encrypted]
  unfold CryptoWrapper.aeadOrZeros
  cases found : crypto.aeadEncrypt plaintext key nonce aad tagLen with
  | none =>
      exact List.length_replicate
  | some recorded =>
      exact crypto.aeadEncrypt_length found

/-- A wrapper whose derivations always succeed. -/
def CryptoWrapper.withTotalHkdf (crypto : CryptoWrapper) : CryptoWrapper where
  hkdfSha256 secret salt info outLen :=
    some (crypto.hkdfOrZeros secret salt info outLen)
  hkdfSha256_length := CryptoWrapper.hkdfOrZeros_length
  aeadEncrypt := crypto.aeadEncrypt
  aeadEncrypt_length := crypto.aeadEncrypt_length
  aeadDecrypt := crypto.aeadDecrypt
  aeadDecrypt_length := crypto.aeadDecrypt_length

/-- A wrapper whose encryptions always succeed. -/
def CryptoWrapper.withTotalAead (crypto : CryptoWrapper) : CryptoWrapper where
  hkdfSha256 := crypto.hkdfSha256
  hkdfSha256_length := crypto.hkdfSha256_length
  aeadEncrypt plaintext key nonce aad tagLen :=
    some (crypto.aeadOrZeros plaintext key nonce aad tagLen)
  aeadEncrypt_length := CryptoWrapper.aeadOrZeros_length
  aeadDecrypt := crypto.aeadDecrypt
  aeadDecrypt_length := crypto.aeadDecrypt_length

/-! ## Canonical encodings -/

/-- The shortest head of a data item of the given major type. -/
def cborHead (majorType : UInt8) (argument : Nat) : Bytes :=
  if argument < 24 then
    [(majorType <<< 5) ||| UInt8.ofNat argument]
  else if argument < 0x100 then
    [(majorType <<< 5) ||| 24, UInt8.ofNat argument]
  else if argument < 0x10000 then
    [(majorType <<< 5) ||| 25, UInt8.ofNat (argument / 0x100),
      UInt8.ofNat argument]
  else
    [(majorType <<< 5) ||| 26, UInt8.ofNat (argument / 0x1000000),
      UInt8.ofNat (argument / 0x10000), UInt8.ofNat (argument / 0x100),
      UInt8.ofNat argument]

/-- zcbor built with `ZCBOR_CANONICAL`.  The bytes a failing encoder leaves are
those the buffer held. -/
def canonicalCbor : CborEncoder where
  listStart := cborHead 4
  listEnd _ := []
  uint32 := cborHead 0
  int32 value :=
    if 0 ≤ value then
      cborHead 0 value.toNat
    else
      cborHead 1 (-1 - value).toNat
  bstr value := cborHead 2 value.length ++ value
  tstr value := cborHead 3 value.length ++ value
  nil := [0xF6]
  residue _ buffer := buffer
  residue_length _ _ := rfl

/-- An encoder that writes what zcbor built with `ZCBOR_CANONICAL` writes:
definite lengths and shortest heads. -/
structure CborEncoder.IsCanonical (cbor : CborEncoder) : Prop where
  listStart : cbor.listStart = canonicalCbor.listStart
  listEnd : cbor.listEnd = canonicalCbor.listEnd
  uint32 : cbor.uint32 = canonicalCbor.uint32
  int32 : cbor.int32 = canonicalCbor.int32
  bstr : cbor.bstr = canonicalCbor.bstr
  tstr : cbor.tstr = canonicalCbor.tstr
  nil : cbor.nil = canonicalCbor.nil

theorem canonicalCbor_isCanonical : canonicalCbor.IsCanonical :=
  ⟨rfl, rfl, rfl, rfl, rfl, rfl, rfl⟩

theorem cborHead_length (majorType : UInt8) (argument : Nat) :
    (cborHead majorType argument).length =
      if argument < 24 then 1
      else if argument < 0x100 then 2
      else if argument < 0x10000 then 3
      else 5 := by
  unfold cborHead
  split
  · rfl
  · split
    · rfl
    · split
      · rfl
      · rfl

theorem canonicalCbor_lengthsMonotone : canonicalCbor.LengthsMonotone := by
  constructor
  · intro shorter longer shorterLe
    simp only [canonicalCbor, List.length_append, cborHead_length]
    split_ifs <;> omega
  · intro value
    simp only [canonicalCbor, List.length_append, cborHead_length,
      List.length_singleton]
    split_ifs <;> omega

theorem CborEncoder.IsCanonical.lengthsMonotone {cbor : CborEncoder}
    (canonical : cbor.IsCanonical) : cbor.LengthsMonotone := by
  constructor
  · intro shorter longer
    rw [canonical.bstr]
    exact canonicalCbor_lengthsMonotone.bstr
  · rw [canonical.nil, canonical.bstr]
    exact canonicalCbor_lengthsMonotone.nil

/-- Encodings of one length have values of one length, so the same head. -/
theorem canonicalCbor_bstr_injective :
    Function.Injective canonicalCbor.bstr := by
  intro left right same
  have lengths := congrArg List.length same
  simp only [canonicalCbor, List.length_append, cborHead_length] at lengths
  have sameLength : left.length = right.length := by
    split_ifs at lengths <;> omega
  simp only [canonicalCbor, sameLength, List.append_cancel_left_eq] at same
  exact same

/-- A platform that answers the recorded calls and encodes canonically. -/
def Platform.ofRecords
    (hkdf : List HkdfRecord) (aead : List AeadRecord)
    (lengths : ∀ record ∈ aead,
      record.ciphertext.length = record.plaintext.length + record.tagLen) :
    Platform where
  toCryptoWrapper := CryptoWrapper.ofRecords hkdf aead lengths
  toCborEncoder := canonicalCbor

/-- The platform with a wrapper whose derivations always succeed. -/
def Platform.withTotalHkdf (platform : Platform) : Platform where
  toCryptoWrapper := platform.toCryptoWrapper.withTotalHkdf
  toCborEncoder := platform.toCborEncoder

/-- And with one whose encryptions always succeed. -/
def Platform.withTotalAead (platform : Platform) : Platform where
  toCryptoWrapper := platform.toCryptoWrapper.withTotalAead
  toCborEncoder := platform.toCborEncoder

end UoscoreUedhoc

import UoscoreUedhoc.Common.Zcbor
import UoscoreUedhoc.Edhoc.Suites

/-!
# The platform of EDHOC

EDHOC uses more of `crypto_wrapper.c` than OSCORE does, reads certificates
through a library, and decodes CBOR.
-/

namespace UoscoreUedhoc.Edhoc

open UoscoreUedhoc

/-- `struct other_party_cred`. -/
structure OtherPartyCred where
  idCred : Bytes
  cred : Bytes
  pk : Bytes
  g : Bytes
  ca : Bytes
  caPk : Bytes
  deriving DecidableEq, Repr

/-- The functions of `crypto_wrapper.c` that EDHOC uses besides `aead`, and
`cert_x509_verify` and `cert_c509_verify`.  `none` stands for an error of the
library below. -/
structure EdhocWrapper extends CryptoWrapper where
  hash : HashAlg → Bytes → Option Bytes
  hash_length :
    ∀ {alg : HashAlg} {input out : Bytes},
      hash alg input = some out → out.length = shaDefaultSize
  /-- `hkdf_extract` of salt and input keying material. -/
  hkdfExtract : HashAlg → Bytes → Bytes → Option Bytes
  hkdfExtract_length :
    ∀ {alg : HashAlg} {salt ikm out : Bytes},
      hkdfExtract alg salt ikm = some out → out.length = prkDefaultSize
  /-- `hkdf_expand` of pseudorandom key and info. -/
  hkdfExpand : HashAlg → Bytes → Bytes → Nat → Option Bytes
  hkdfExpand_length :
    ∀ {alg : HashAlg} {prk info out : Bytes} {outLen : Nat},
      hkdfExpand alg prk info outLen = some out → out.length = outLen
  /-- `shared_secret_derive` of a secret and a public key. -/
  sharedSecretDerive : EcdhAlg → Bytes → Bytes → Option Bytes
  /-- `sign` with a secret and a public key. -/
  sign : SignAlg → Bytes → Bytes → Bytes → Option Bytes
  sign_length :
    ∀ {alg : SignAlg} {sk pk message signature : Bytes},
      sign alg sk pk message = some signature →
        signature.length = signatureDefaultSize
  /-- `verify` of public key, message and signature. -/
  verify : SignAlg → Bytes → Bytes → Bytes → Option Bool
  /-- `cert_x509_verify` into a key buffer of the given size: the key in the
  certificate and whether its signature is valid. -/
  certX509Verify : Bytes → List OtherPartyCred → Nat → Option (Bytes × Bool)
  /-- `cert_c509_verify`. -/
  certC509Verify : Bytes → List OtherPartyCred → Nat → Option (Bytes × Bool)

/-- Everything EDHOC takes from outside. -/
structure EdhocPlatform where
  crypto : EdhocWrapper
  cbor : CborMapEncoder
  zcbor : ZcborDecoder

/-! ## A wrapper given by recorded calls -/

/-- Recorded calls of the wrapper: what went in and what came out. -/
structure EdhocRecords where
  aead : List AeadRecord
  hash : List (Bytes × Bytes)
  hkdfExtract : List ((Bytes × Bytes) × Bytes)
  hkdfExpand : List ((Bytes × Bytes × Nat) × Bytes)
  sharedSecret : List ((Bytes × Bytes) × Bytes)
  sign : List ((Bytes × Bytes × Bytes) × Bytes)

/-- The recorded outputs have the lengths that the wrapper promises. -/
structure EdhocRecords.LengthsRight (records : EdhocRecords) : Prop where
  aead : ∀ record ∈ records.aead,
    record.ciphertext.length = record.plaintext.length + record.tagLen
  hash : ∀ record ∈ records.hash, record.2.length = shaDefaultSize
  hkdfExtract : ∀ record ∈ records.hkdfExtract,
    record.2.length = prkDefaultSize
  hkdfExpand : ∀ record ∈ records.hkdfExpand,
    record.2.length = record.1.2.2
  sign : ∀ record ∈ records.sign, record.2.length = signatureDefaultSize

theorem mem_of_lookup {κ : Type} [BEq κ] [LawfulBEq κ]
    {records : List (κ × Bytes)} {key : κ} {value : Bytes}
    (found : records.lookup key = some value) : (key, value) ∈ records := by
  obtain ⟨before, after, split, _⟩ := List.lookup_eq_some_iff.mp found
  rw [split]
  simp

theorem getD_length {found : Option Bytes} {other : Bytes} {length : Nat}
    (foundLength : ∀ {value : Bytes}, found = some value →
      value.length = length)
    (otherLength : other.length = length) :
    (found.getD other).length = length := by
  cases found with
  | none =>
      exact otherLength
  | some value =>
      exact foundLength rfl

/-- A wrapper that answers exactly the recorded calls.  A signature is valid
when it was recorded for the public key and the message, and no certificate
can be read. -/
def EdhocWrapper.ofRecords (records : EdhocRecords)
    (lengths : records.LengthsRight) : EdhocWrapper where
  toCryptoWrapper := CryptoWrapper.ofRecords [] records.aead lengths.aead
  hash _ input := records.hash.lookup input
  hash_length found := lengths.hash _ (mem_of_lookup found)
  hkdfExtract _ salt ikm := records.hkdfExtract.lookup (salt, ikm)
  hkdfExtract_length found := lengths.hkdfExtract _ (mem_of_lookup found)
  hkdfExpand _ prk info outLen :=
    records.hkdfExpand.lookup (prk, info, outLen)
  hkdfExpand_length found := lengths.hkdfExpand _ (mem_of_lookup found)
  sharedSecretDerive _ sk pk := records.sharedSecret.lookup (sk, pk)
  sign _ sk pk message := records.sign.lookup (sk, pk, message)
  sign_length found := lengths.sign _ (mem_of_lookup found)
  verify _ pk message signature :=
    some (records.sign.any fun record =>
      record.1.2.1 = pk ∧ record.1.2.2 = message ∧ record.2 = signature)
  certX509Verify _ _ _ := none
  certC509Verify _ _ _ := none

/-- A wrapper that answers the recorded calls as recorded and all others with
zero bytes: what it encrypts then is the plaintext with a tag of zeros. -/
def CryptoWrapper.completed (aead : List AeadRecord)
    (lengths : ∀ record ∈ aead,
      record.ciphertext.length = record.plaintext.length + record.tagLen) :
    CryptoWrapper where
  hkdfSha256 _ _ _ outLen := some (List.replicate outLen 0)
  hkdfSha256_length := by
    intro secret salt info outLen out zeros
    simp only [Option.some.injEq] at zeros
    rw [← zeros, List.length_replicate]
  aeadEncrypt plaintext key nonce aad tagLen :=
    match (CryptoWrapper.ofRecords [] aead lengths).aeadEncrypt plaintext key
      nonce aad tagLen with
    | some ciphertext => some ciphertext
    | none => some (plaintext ++ List.replicate tagLen 0)
  aeadEncrypt_length := by
    intro plaintext key nonce aad ciphertext tagLen encrypted
    split at encrypted
    · rename_i recorded
      rw [Option.some.injEq] at encrypted
      subst encrypted
      exact (CryptoWrapper.ofRecords [] aead lengths).aeadEncrypt_length
        recorded
    · rw [Option.some.injEq] at encrypted
      rw [← encrypted, List.length_append, List.length_replicate]
  aeadDecrypt ciphertext key nonce aad tagLen :=
    match (CryptoWrapper.ofRecords [] aead lengths).aeadDecrypt ciphertext key
      nonce aad tagLen with
    | some plaintext => some plaintext
    | none =>
        if tagLen ≤ ciphertext.length then
          some (ciphertext.take (ciphertext.length - tagLen))
        else
          none
  aeadDecrypt_length := by
    intro ciphertext key nonce aad plaintext tagLen decrypted
    split at decrypted
    · rename_i recorded
      rw [Option.some.injEq] at decrypted
      subst decrypted
      exact (CryptoWrapper.ofRecords [] aead lengths).aeadDecrypt_length
        recorded
    · split at decrypted
      · rw [Option.some.injEq] at decrypted
        rw [← decrypted, List.length_take]
        omega
      · cases decrypted

/-- The completed wrapper decrypts what it encrypts when no recorded
ciphertext ends with a tag of zeros. -/
theorem CryptoWrapper.completed_aeadInverts
    {aead : List AeadRecord}
    {lengths : ∀ record ∈ aead,
      record.ciphertext.length = record.plaintext.length + record.tagLen}
    (inverts : (CryptoWrapper.ofRecords [] aead lengths).AeadInverts)
    (noZeroTags : ∀ record ∈ aead,
      ¬ List.replicate record.tagLen 0 <:+ record.ciphertext) :
    (CryptoWrapper.completed aead lengths).AeadInverts := by
  intro plaintext key nonce aad ciphertext tagLen encrypted
  unfold CryptoWrapper.completed at encrypted ⊢
  dsimp only at encrypted ⊢
  split at encrypted
  · rename_i recorded
    rw [Option.some.injEq] at encrypted
    subst encrypted
    rw [inverts recorded]
  · rw [Option.some.injEq] at encrypted
    subst encrypted
    have notRecorded :
        (CryptoWrapper.ofRecords [] aead lengths).aeadDecrypt
          (plaintext ++ List.replicate tagLen 0) key nonce aad tagLen =
            none := by
      unfold CryptoWrapper.ofRecords
      rw [Option.map_eq_none_iff, List.find?_eq_none]
      intro record recorded same
      simp only [decide_eq_true_eq] at same
      apply noZeroTags record recorded
      rw [same.1, same.2.2.2.2]
      exact List.suffix_append _ _
    rw [notRecorded]
    simp

/-- The same for the functions that EDHOC uses besides `aead`. -/
def EdhocWrapper.completed (records : EdhocRecords)
    (lengths : records.LengthsRight) : EdhocWrapper where
  toCryptoWrapper := CryptoWrapper.completed records.aead lengths.aead
  hash _ input :=
    some ((records.hash.lookup input).getD
      (List.replicate shaDefaultSize 0))
  hash_length := by
    intro alg input out hashed
    rw [Option.some.injEq] at hashed
    subst hashed
    exact getD_length (fun found => lengths.hash _ (mem_of_lookup found))
      List.length_replicate
  hkdfExtract _ salt ikm :=
    some ((records.hkdfExtract.lookup (salt, ikm)).getD
      (List.replicate prkDefaultSize 0))
  hkdfExtract_length := by
    intro alg salt ikm out extracted
    rw [Option.some.injEq] at extracted
    subst extracted
    exact getD_length
      (fun found => lengths.hkdfExtract _ (mem_of_lookup found))
      List.length_replicate
  hkdfExpand _ prk info outLen :=
    some ((records.hkdfExpand.lookup (prk, info, outLen)).getD
      (List.replicate outLen 0))
  hkdfExpand_length := by
    intro alg prk info out outLen expanded
    rw [Option.some.injEq] at expanded
    subst expanded
    exact getD_length
      (fun found => lengths.hkdfExpand _ (mem_of_lookup found))
      List.length_replicate
  sharedSecretDerive _ sk pk :=
    some ((records.sharedSecret.lookup (sk, pk)).getD [])
  sign _ sk pk message := records.sign.lookup (sk, pk, message)
  sign_length found := lengths.sign _ (mem_of_lookup found)
  verify _ pk message signature :=
    some (records.sign.any fun record =>
      record.1.2.1 = pk ∧ record.1.2.2 = message ∧ record.2 = signature)
  certX509Verify _ _ _ := none
  certC509Verify _ _ _ := none

/-! ## Encoding into a buffer -/

/-- A generated `cbor_encode_...` function into a buffer of the given size,
called through `TRY_EXPECT`.  What a failing encoder writes is not read. -/
def cborEncode (encoding : Bytes) (size : Nat) : Outcome Bytes :=
  tryExpect (if encoding.length ≤ size then some encoding else none)

theorem cborEncode_eq_ok {encoding out : Bytes} {size : Nat} :
    cborEncode encoding size = .ok out ↔
      encoding.length ≤ size ∧ out = encoding := by
  unfold cborEncode
  rw [tryExpect_eq_ok]
  split
  · rename_i fits
    simp [fits, eq_comm]
  · rename_i tooLong
    simp [tooLong]

theorem cborEncode_of_le {encoding : Bytes} {size : Nat}
    (fits : encoding.length ≤ size) :
    cborEncode encoding size = .ok encoding :=
  cborEncode_eq_ok.mpr ⟨fits, rfl⟩

end UoscoreUedhoc.Edhoc

import UoscoreUedhoc.Edhoc.HonestRuns

/-!
# Delivery of `ID_CRED_x`

A party puts the map of its credential into message 2 or 3, and the other
party splits the plaintext into the map and the signature or MAC.
`plaintext_split` encodes again a `kid`, an `x5chain` and an `x5t` whose
algorithm is a number.  The other entries do not reach the buffer of the
receiver.
-/

namespace UoscoreUedhoc.Edhoc

open UoscoreUedhoc

section

variable {platform : EdhocPlatform}

/-! ## Lengths -/

theorem bstr_longer (canonical : platform.cbor.IsCanonical) (value : Bytes) :
    value.length ≤ (platform.cbor.bstr value).length := by
  rw [canonical.bstr]
  simp only [canonicalCbor, List.length_append]
  exact Nat.le_add_left _ _

theorem tstr_longer (canonical : platform.cbor.IsCanonical) (value : Bytes) :
    value.length ≤ (platform.cbor.tstr value).length := by
  rw [canonical.tstr]
  simp only [canonicalCbor, List.length_append]
  exact Nat.le_add_left _ _

/-- A map is at least as long as the value of its only entry. -/
theorem map_longer (cbor : CborMapEncoder) (key value : Bytes) :
    value.length ≤ (cbor.map [(key, value)]).length := by
  simp only [CborMapEncoder.map, List.map_cons, List.map_nil,
    List.flatten_cons, List.flatten_nil, List.append_nil, List.length_append]
  omega

/-- A list is at least as long as its two elements. -/
theorem pair_longer (cbor : CborEncoder) (first second : Bytes) :
    first.length + second.length ≤ (cbor.list [first, second]).length := by
  simp only [CborEncoder.list, List.flatten_cons, List.flatten_nil,
    List.append_nil, List.length_append]
  omega

/-- The strings of a map that fits into the buffers have lengths in a
`uint32_t`. -/
theorem idCredEntry_isStored (canonical : platform.cbor.IsCanonical)
    {entry : IdCredEntry}
    (short : (entry.encoding platform.cbor).length ≤ idCredDefaultSize) :
    entry.IsStored := by
  unfold idCredDefaultSize at short
  cases entry with
  | kid value =>
      exact trivial
  | string label value =>
      have inMap := map_longer platform.cbor
        (platform.cbor.uint32 label.number.toNat) (platform.cbor.bstr value)
      have valueShort := bstr_longer canonical value
      have isShort : value.length < 2 ^ 32 := by
        rw [IdCredEntry.encoding] at short
        omega
      exact isShort
  | certHash label alg hash =>
      have inMap := map_longer platform.cbor
        (platform.cbor.uint32 label.number.toNat)
        (platform.cbor.list
          [alg.encoding platform.cbor, platform.cbor.bstr hash])
      have inList := pair_longer platform.cbor.toCborEncoder
        (alg.encoding platform.cbor) (platform.cbor.bstr hash)
      have hashShort := bstr_longer canonical hash
      have isShort : hash.length < 2 ^ 32 := by
        rw [IdCredEntry.encoding] at short
        omega
      cases alg with
      | int value =>
          exact isShort
      | text value =>
          have textShort := tstr_longer canonical value
          have isTextShort : value.length < 2 ^ 32 := by
            rw [IdCredEntry.encoding] at short
            rw [AlgorithmName.encoding] at short inMap inList
            omega
          exact ⟨isTextShort, isShort⟩

/-! ## Plaintexts -/

/-- The plaintext of a party without application data. -/
def IdCredEntry.plaintext (cbor : CborMapEncoder) (entry : IdCredEntry)
    (signatureOrMac : Bytes) : Bytes :=
  entry.inPlaintext cbor ++ cbor.bstr signatureOrMac

/-- What `ciphertext_gen` encrypts, when the signature or MAC fits into its
buffer. -/
theorem plaintextEncode_entry (canonical : platform.cbor.IsCanonical)
    (inverts : platform.zcbor.Inverts platform.cbor) {ctxt : Ciphertext}
    (carriesIdCred : ctxt ≠ .ciphertext4) {entry : IdCredEntry}
    (readable : entry.IsReadable platform.zcbor platform.cbor)
    {signatureOrMac plaintext : Bytes}
    (encoded : plaintextEncode platform ctxt (entry.encoding platform.cbor)
      signatureOrMac [] = .ok plaintext) :
    signatureOrMac.length ≤ sgnOrMacDefaultSize ∧
      plaintext = entry.plaintext platform.cbor signatureOrMac := by
  obtain ⟨kid, isKid, isInPlaintext⟩ :=
    idCred2Kid_entry canonical inverts readable
  rw [plaintextEncode_of_idCred2Kid carriesIdCred isKid, isInPlaintext,
    List.append_nil] at encoded
  obtain ⟨room, _, fits, rfl⟩ := encoded
  refine ⟨?_, rfl⟩
  -- the plaintext bounds the length, so that adding two does not wrap around
  have longer := bstr_longer canonical signatureOrMac
  rw [List.length_append] at fits
  unfold plaintextDefaultSize at fits
  rw [Nat.mod_eq_of_lt (by omega)] at room
  omega

/-- `plaintext_split` gets the signature or MAC, and of the entry what its
first half writes. -/
theorem plaintextSplit_entry (inverts : platform.zcbor.Inverts platform.cbor)
    {entry : IdCredEntry}
    (readable : entry.IsReadable platform.zcbor platform.cbor)
    {signatureOrMac : Bytes}
    (signatureShort : signatureOrMac.length ≤ sgnOrMacDefaultSize)
    (eadLen : Nat) :
    ∃ idCred : PlaintextIdCred, idCred.ReadsEntry entry ∧
      plaintextSplit platform (entry.plaintext platform.cbor signatureOrMac)
          eadLen =
        (plaintextIdCred platform idCredDefaultSize idCred).map
          fun idCredX => ⟨idCredX, signatureOrMac, []⟩ := by
  have wordLength : IsByteArray signatureOrMac := by
    unfold sgnOrMacDefaultSize at signatureShort
    unfold IsByteArray
    omega
  obtain ⟨idCred, reads, decoded⟩ :=
    @cborDecodePlaintext_entry platform inverts entry readable signatureOrMac
      [] wordLength
  rw [List.append_nil, trailingString_nil] at decoded
  refine ⟨idCred, reads, ?_⟩
  unfold plaintextSplit IdCredEntry.plaintext
  rw [decoded, outcome_ok_bind,
    memcpyS_append_eq_ok.mpr ⟨signatureShort, rfl⟩]
  cases plaintextIdCred platform idCredDefaultSize idCred with
  | ok written =>
      rfl
  | error reason =>
      rfl

/-- The entry and the signature or MAC are split as they were put together just
for the entries that are encoded again. -/
theorem plaintextSplit_restores_iff (canonical : platform.cbor.IsCanonical)
    (inverts : platform.zcbor.InvertsTexts platform.cbor)
    {entry : IdCredEntry}
    (short : (entry.encoding platform.cbor).length ≤ idCredDefaultSize)
    {signatureOrMac : Bytes}
    (signatureShort : signatureOrMac.length ≤ sgnOrMacDefaultSize)
    (eadLen : Nat) :
    plaintextSplit platform (entry.plaintext platform.cbor signatureOrMac)
        eadLen =
          .ok ⟨some (entry.encoding platform.cbor), signatureOrMac, []⟩ ↔
      entry.IsReencoded := by
  have stored := idCredEntry_isStored canonical short
  obtain ⟨idCred, reads, split⟩ :=
    plaintextSplit_entry inverts.toInverts (stored.isReadable inverts)
      signatureShort eadLen
  rw [split, ← plaintextIdCred_restores_iff short reads, outcome_map_eq_ok]
  constructor
  · rintro ⟨written, isWritten, same⟩
    cases same
    exact isWritten
  · intro restored
    exact ⟨_, restored, rfl⟩

/-! ## Ciphertexts -/

/-- The receiver of `CIPHERTEXT_2` or `CIPHERTEXT_3` gets the `ID_CRED_x` of the
sender just for the entries that `plaintext_split` encodes again, as long as
the transcript hash fits into the associated data. -/
theorem idCred_restored_iff (platform : EdhocPlatform)
    (canonical : platform.cbor.IsCanonical)
    (inverts : platform.zcbor.InvertsTexts platform.cbor)
    (aeadInverts : platform.crypto.AeadInverts) (ctxt : Ciphertext)
    (carriesIdCred : ctxt ≠ .ciphertext4) (suite : Suite)
    (prk th signatureOrMac : Bytes) (entry : IdCredEntry)
    (short : (entry.encoding platform.cbor).length ≤ idCredDefaultSize)
    (ciphertext : Bytes)
    (sent : ciphertextGen platform ctxt suite (entry.encoding platform.cbor)
      signatureOrMac [] prk th = .ok ciphertext) (eadLen : Nat) :
    ciphertextDecryptSplit platform ctxt suite eadLen prk th ciphertext =
        .ok ⟨some (entry.encoding platform.cbor), signatureOrMac, []⟩ ↔
      entry.IsReencoded ∧
        (associatedData platform.cbor th).length ≤
          associatedDataDefaultSize := by
  have readable :=
    (idCredEntry_isStored canonical short).isReadable inverts
  obtain ⟨plaintext, encoded, encrypted⟩ := outcome_bind_eq_ok.mp sent
  obtain ⟨signatureShort, rfl⟩ :=
    plaintextEncode_entry canonical inverts.toInverts carriesIdCred readable
      encoded
  have restores :=
    plaintextSplit_restores_iff canonical inverts short signatureShort eadLen
  unfold ciphertextDecryptSplit
  rw [outcome_bind_eq_ok]
  constructor
  · rintro ⟨received, decrypted, split⟩
    obtain ⟨aadFits, rfl⟩ :=
      (ciphertextDecrypt_eq_ok aeadInverts encrypted).mp decrypted
    exact ⟨restores.mp split, aadFits⟩
  · rintro ⟨isReencoded, aadFits⟩
    exact
      ⟨_, (ciphertextDecrypt_eq_ok aeadInverts encrypted).mpr ⟨aadFits, rfl⟩,
        restores.mpr isReencoded⟩

end

/-! ## Two certificates by reference -/

/-- A transcript hash. -/
def zeroTh : Bytes :=
  List.replicate shaDefaultSize 0

/-- A certificate named by its hash. -/
def hashEntry : IdCredEntry :=
  .certHash .x5t (.int (-15)) [1, 2, 3, 4]

/-- A certificate named by its address. -/
def uriEntry : IdCredEntry :=
  .string .x5u [1, 2, 3, 4]

/-- The plaintext of an entry with a MAC, as `CIPHERTEXT_2` under a key stream
of zeros. -/
def zeroStreamCiphertext (entry : IdCredEntry) : Bytes :=
  entry.plaintext canonicalMapCbor [7, 7, 7, 7, 7, 7, 7, 7]

/-- The certificate hash reaches the receiver. -/
theorem idCred_restored_hash :
    ciphertextDecryptSplit v1CompletedPlatform .ciphertext2 v1Opened2.suite
        256 [] zeroTh (zeroStreamCiphertext hashEntry) =
      .ok
        ⟨some (hashEntry.encoding v1CompletedPlatform.cbor),
          [7, 7, 7, 7, 7, 7, 7, 7], []⟩ :=
  (idCred_restored_iff v1CompletedPlatform v1_canonical
    canonicalZcbor_invertsTexts v1_works.aeadInverts .ciphertext2 nofun
    v1Opened2.suite [] zeroTh [7, 7, 7, 7, 7, 7, 7, 7] hashEntry
    (by decide +kernel) (zeroStreamCiphertext hashEntry) (by decide +kernel)
    256).mpr ⟨⟨rfl, -15, rfl⟩, by decide +kernel⟩

/-- The address of the certificate is sent and does not reach the receiver,
whose buffer stays as it was. -/
theorem uriEntry_lost :
    ¬ ∀ (platform : EdhocPlatform), platform.cbor.IsCanonical →
        platform.zcbor.InvertsTexts platform.cbor →
        platform.crypto.AeadInverts →
        ∀ ctxt : Ciphertext, ctxt ≠ .ciphertext4 →
          ∀ (suite : Suite) (prk th signatureOrMac : Bytes)
            (entry : IdCredEntry),
            th.length = shaDefaultSize →
            (entry.encoding platform.cbor).length ≤ idCredDefaultSize →
              ∀ ciphertext : Bytes,
                ciphertextGen platform ctxt suite
                    (entry.encoding platform.cbor) signatureOrMac [] prk th =
                  .ok ciphertext →
                ∀ eadLen : Nat,
                  ciphertextDecryptSplit platform ctxt suite eadLen prk th
                      ciphertext =
                    .ok
                      ⟨some (entry.encoding platform.cbor), signatureOrMac,
                        []⟩ := by
  intro restores
  have restored := restores v1CompletedPlatform v1_canonical
    canonicalZcbor_invertsTexts v1_works.aeadInverts .ciphertext2 nofun
    v1Opened2.suite [] zeroTh [7, 7, 7, 7, 7, 7, 7, 7] uriEntry
    (by decide) (by decide +kernel) (zeroStreamCiphertext uriEntry)
    (by decide +kernel) 256
  have unwritten :
      ciphertextDecryptSplit v1CompletedPlatform .ciphertext2
          v1Opened2.suite 256 [] zeroTh (zeroStreamCiphertext uriEntry) =
        .ok ⟨none, [7, 7, 7, 7, 7, 7, 7, 7], []⟩ := by
    decide +kernel
  rw [unwritten] at restored
  cases restored

end UoscoreUedhoc.Edhoc

import UoscoreUedhoc.Edhoc.HonestSteps

/-!
# Honest exchanges

Two parties that know each other's credentials and whose messages fit into
their buffers.  Application data is written into plaintexts as it is, but read
from them as the content of a byte string, so that only an exchange without
application data delivers what was supplied.
-/

namespace UoscoreUedhoc.Edhoc

open UoscoreUedhoc

/-! ## Honest exchanges -/

/-- One of the parties, as the other one needs it. -/
structure HonestParty (platform : EdhocPlatform)
    (keyPair : EcdhAlg → Bytes → Bytes → Prop)
    (signPair : SignAlg → Bytes → Bytes → Prop) (suite : Suite)
    (staticDh : Bool) (credArray : List OtherPartyCred) (idCredX : IdCredX)
    (idCred cred sk pk secret ead macLabel : Bytes) : Prop where
  stored : idCredX.IsStored
  isIdCred : idCred = idCredX.encoding platform.cbor
  idCredShort : idCred.length ≤ idCredDefaultSize
  known : Knows platform keyPair suite staticDh credArray idCredX cred pk
    secret
  signs : staticDh = false → signPair suite.edhocSign sk pk
  fits : AuthFits platform staticDh suite idCred cred ead macLabel

/-- Two parties that match, and whose messages fit into their buffers. -/
structure HonestExchange (platform : EdhocPlatform)
    (keyPair : EcdhAlg → Bytes → Bytes → Prop)
    (signPair : SignAlg → Bytes → Bytes → Prop) (suite : Suite)
    (staticDhI staticDhR : Bool) (idCredI idCredR : IdCredX)
    (initiator : InitiatorContext) (buffersI : InitiatorBuffers)
    (responder : ResponderContext) (buffersR : ResponderBuffers) : Prop where
  method : methodType initiator.method = ⟨some staticDhI, some staticDhR⟩
  commonSuite : ∃ label,
    initiator.suitesI.getLast? = some label ∧
      label ∈ responder.suitesR.take 256 ∧ getSuite label = .ok suite
  fewSuites : initiator.suitesI.length ≤ 5
  message4 : initiator.msg4 = responder.msg4
  storedI : initiator.IsStored
  gXShort : initiator.gX.length ≤ gXDefaultSize
  gYLength : responder.gY.length = getEcdhPkLen suite.edhocEcdh
  cRFits : responder.cR.FitsInto cRDefaultSize
  ephemeralI : keyPair suite.edhocEcdh initiator.x initiator.gX
  ephemeralR : keyPair suite.edhocEcdh responder.y responder.gY
  partyI : HonestParty platform keyPair signPair suite staticDhI
    buffersR.credIArray idCredI initiator.idCredI initiator.credI
    initiator.skI initiator.pkI initiator.i initiator.ead3 mac3Label
  partyR : HonestParty platform keyPair signPair suite staticDhR
    buffersI.credRArray idCredR responder.idCredR responder.credR
    responder.skR responder.pkR responder.r responder.ead2 mac2Label
  message1Fits :
    (message1Encoding platform.cbor initiator).length ≤ msg1DefaultSize
  message2Fits : ∀ tag ciphertext2 : Bytes,
    tag.length = authLength staticDhR suite →
      ciphertext2.length =
        (encodedPlaintext platform.cbor idCredR tag responder.ead2).length →
      ciphertext2.length + encodingOverhead ≤ plaintextDefaultSize ∧
        (encodeM2 platform.cbor (responder.gY ++ ciphertext2)
          responder.cR).length ≤ msg2DefaultSize
  message3Fits : ∀ tag : Bytes, tag.length = authLength staticDhI suite →
    (encodedPlaintext platform.cbor idCredI tag initiator.ead3).length +
        getAeadMacLen suite.edhocAead + encodingOverhead ≤
      plaintextDefaultSize
  message4Fits : responder.msg4 = true →
    responder.ead4.length + getAeadMacLen suite.edhocAead ≤
      plaintextDefaultSize
  ead1Fits : initiator.ead1.length ≤ buffersR.ead1Len
  ead2Fits : responder.ead2.length ≤ buffersI.ead2Len
  ead3Fits : initiator.ead3.length ≤ buffersR.ead3Len
  ead4Fits : responder.ead4.length ≤ buffersI.ead4Len

section Completion

variable {platform : EdhocPlatform}
  {keyPair : EcdhAlg → Bytes → Bytes → Prop}
  {signPair : SignAlg → Bytes → Bytes → Prop}
  {suite : Suite} {staticDhI staticDhR : Bool}
  {idCredI idCredR : IdCredX}
  {initiator : InitiatorContext} {buffersI : InitiatorBuffers}
  {responder : ResponderContext} {buffersR : ResponderBuffers}

theorem authLength_le (staticDh : Bool) (suite : Suite) :
    authLength staticDh suite ≤ 64 := by
  unfold authLength
  cases staticDh with
  | true =>
      have short := macLen_le_macDefaultSize suite.edhocMacLenStaticDh
      unfold macDefaultSize at short
      rw [if_pos rfl]
      omega
  | false =>
      exact Nat.le_refl _

/-- What a party sends about itself is encoded, and split by the other one. -/
theorem HonestParty.plaintext (canonical : platform.cbor.IsCanonical)
    (inverts : platform.zcbor.Inverts platform.cbor) {ctxt : Ciphertext}
    (carriesIdCred : ctxt ≠ .ciphertext4) {staticDh : Bool}
    {credArray : List OtherPartyCred} {idCredX : IdCredX}
    {idCred cred sk pk secret macLabel tag : Bytes}
    (party : HonestParty platform keyPair signPair suite staticDh credArray
      idCredX idCred cred sk pk secret [] macLabel)
    (tagLength : tag.length = authLength staticDh suite)
    (short : (encodedPlaintext platform.cbor idCredX tag []).length ≤
      plaintextDefaultSize) (eadLen : Nat) :
    plaintextEncode platform ctxt idCred tag [] =
        .ok (encodedPlaintext platform.cbor idCredX tag []) ∧
      plaintextSplit platform (encodedPlaintext platform.cbor idCredX tag [])
          eadLen = .ok ⟨some idCred, tag, []⟩ := by
  have tagShort := authLength_le staticDh suite
  have idCredShort := party.idCredShort
  have roomForTag : (tag.length + 2) % 2 ^ 32 ≤ sgnOrMacDefaultSize := by
    unfold sgnOrMacDefaultSize
    omega
  have tagFits : tag.length ≤ sgnOrMacDefaultSize := by
    unfold sgnOrMacDefaultSize
    omega
  have tagEnc := @bstr_length_le_add_two _ canonical tag (by omega)
  rw [party.isIdCred] at idCredShort ⊢
  constructor
  · exact
      (plaintextEncode_eq_ok canonical inverts carriesIdCred
        party.stored).mpr ⟨roomForTag, tagEnc, short, rfl⟩
  · apply
      (plaintextSplit_eq_ok inverts party.stored idCredShort tagFits).mpr
    constructor
    · intro view found
      rw [trailingString_nil] at found
      cases found
    · rw [receivedEad_eq_iff.mpr rfl]

theorem Cx.FitsInto.isStored {cx : Cx} (fits : cx.FitsInto cRDefaultSize) :
    cx.IsStored := by
  cases cx with
  | int value =>
      trivial
  | bstr value =>
      have short : value.length ≤ cRDefaultSize := fits
      unfold cRDefaultSize at short
      unfold Cx.IsStored IsByteArray
      dsimp only
      omega

theorem HonestExchange.gYShort
    (honest : HonestExchange platform keyPair signPair suite staticDhI
      staticDhR idCredI idCredR initiator buffersI responder buffersR) :
    responder.gY.length ≤ gYDefaultSize := by
  rw [honest.gYLength]
  exact getEcdhPkLen_le _

/-- What the receiver takes from a plaintext of an honest party. -/
theorem HonestParty.split (canonical : platform.cbor.IsCanonical)
    (inverts : platform.zcbor.Inverts platform.cbor) {staticDh : Bool}
    {credArray : List OtherPartyCred} {idCredX : IdCredX}
    {idCred cred sk pk secret ead macLabel sent : Bytes}
    (party : HonestParty platform keyPair signPair suite staticDh credArray
      idCredX idCred cred sk pk secret ead macLabel)
    {ctxt : Ciphertext} (carriesIdCred : ctxt ≠ .ciphertext4) {eadLen : Nat}
    {split : SplitPlaintext}
    (isSplit : IsSplitAs platform ctxt idCred sent eadLen split) :
    split.idCredX = some idCred ∧
      split.ad = receivedEad platform.zcbor sent := by
  obtain ⟨signatureOrMac, plaintext, encoded, splitting⟩ := isSplit
  have idCredShort := party.idCredShort
  rw [party.isIdCred] at encoded idCredShort ⊢
  obtain ⟨room, _, fits, rfl⟩ :=
    (plaintextEncode_eq_ok canonical inverts carriesIdCred
      party.stored).mp encoded
  have signatureShort : signatureOrMac.length ≤ sgnOrMacDefaultSize := by
    have inside : signatureOrMac.length ≤
        (platform.cbor.bstr signatureOrMac).length := by
      rw [canonical.bstr]
      simp only [canonicalCbor, List.length_append]
      omega
    simp only [encodedPlaintext, List.length_append] at fits
    unfold plaintextDefaultSize at fits
    unfold sgnOrMacDefaultSize at room ⊢
    omega
  obtain ⟨_, rfl⟩ := (plaintextSplit_eq_ok inverts party.stored idCredShort
    signatureShort).mp splitting
  exact ⟨rfl, rfl⟩

end Completion

/-! ## The vector -/

/-- The wrapper of the vector, completed to one that always succeeds. -/
def v1CompletedPlatform : EdhocPlatform where
  crypto := EdhocWrapper.completed v1Records v1Records_lengths
  cbor := canonicalMapCbor
  zcbor := canonicalZcbor

/-- No party of the vector signs. -/
def V1SignPair (_ : SignAlg) (_ _ : Bytes) : Prop :=
  False

theorem v1_works : v1CompletedPlatform.crypto.Works V1KeyPair V1SignPair where
  hash _ _ := ⟨_, rfl⟩
  hkdfExtract _ _ _ := ⟨_, rfl⟩
  hkdfExpand _ _ _ _ _ := ⟨_, rfl⟩
  sharedSecret _ _ := ⟨_, rfl⟩
  dhCommutes := by
    intro alg a gA b gB leftPair rightPair
    have same := v1_dhCommutes leftPair rightPair
    exact congrArg (fun found : Option Bytes => some (found.getD [])) same
  sign := by
    intro alg sk pk impossible
    exact absurd impossible id
  aeadEncrypt := by
    intro alg plaintext key nonce aad _ _
    unfold v1CompletedPlatform EdhocWrapper.completed
      CryptoWrapper.completed
    dsimp only
    split
    · exact ⟨_, rfl⟩
    · exact ⟨_, rfl⟩
  aeadInverts := by
    have noZeroTags : ∀ record ∈ v1Records.aead,
        ¬ List.replicate record.tagLen 0 <:+ record.ciphertext := by
      decide +kernel
    exact @CryptoWrapper.completed_aeadInverts v1Records.aead
      v1Records_lengths.aead v1_aeadInverts noZeroTags

theorem v1_canonical : v1CompletedPlatform.cbor.IsCanonical :=
  canonicalCbor_isCanonical

end UoscoreUedhoc.Edhoc

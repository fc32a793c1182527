import UoscoreUedhoc.Edhoc.SignatureOrMac
import UoscoreUedhoc.Edhoc.TranscriptBinding
import UoscoreUedhoc.Edhoc.Initiator

/-!
# What signatures attest

The byte string that `signature_or_mac` signs or verifies contains a transcript
hash, the credentials and a MAC over both under the key of the session.  It can
be taken apart again, so two equal ones attest the same unless two different
byte strings have the same hash or two different calls of `hkdf_expand` the same
output.
-/

namespace UoscoreUedhoc.Edhoc

open UoscoreUedhoc

/-! ## Taking encodings apart -/

section Encodings

theorem canonicalCbor_tstr_append_injective {left right : Bytes}
    (leftFits : left.length < 2 ^ 32) (rightFits : right.length < 2 ^ 32)
    {leftRest rightRest : Bytes}
    (same : canonicalCbor.tstr left ++ leftRest =
      canonicalCbor.tstr right ++ rightRest) :
    left = right ∧ leftRest = rightRest := by
  simp only [canonicalCbor, List.append_assoc] at same
  obtain ⟨_, sameLength, sameRest⟩ :=
    cborHead_append_injective (by decide) (by decide) leftFits rightFits same
  exact List.append_inj sameRest sameLength

variable {platform : EdhocPlatform}
  (canonical : platform.cbor.IsCanonical)

include canonical

theorem tstr_length_lt (value : Bytes) :
    value.length < (platform.cbor.tstr value).length := by
  rw [canonical.tstr]
  simp only [canonicalCbor, List.length_append, cborHead_length]
  split_ifs <;> omega

/-- An info for `hkdf_expand` determines its parts. -/
theorem hkdfInfo_injective {leftTh leftLabel leftContext rightTh rightLabel
      rightContext : Bytes} {leftLen rightLen : Nat}
    (leftLenFits : leftLen < 2 ^ 32) (rightLenFits : rightLen < 2 ^ 32)
    (fits : (hkdfInfo platform.cbor leftTh leftLabel leftContext
      leftLen).length < 2 ^ 32)
    (same : hkdfInfo platform.cbor leftTh leftLabel leftContext leftLen =
      hkdfInfo platform.cbor rightTh rightLabel rightContext rightLen) :
    leftTh = rightTh ∧ leftLabel = rightLabel ∧
      leftContext = rightContext ∧ leftLen = rightLen := by
  have rightFits := fits
  rw [same] at rightFits
  unfold hkdfInfo at fits rightFits same
  simp only [List.length_append] at fits rightFits
  have leftThShort := bstr_length_lt canonical leftTh
  have rightThShort := bstr_length_lt canonical rightTh
  have leftLabelShort := tstr_length_lt canonical leftLabel
  have rightLabelShort := tstr_length_lt canonical rightLabel
  have leftContextShort := bstr_length_lt canonical leftContext
  have rightContextShort := bstr_length_lt canonical rightContext
  simp only [List.append_assoc] at same
  rw [canonical.bstr, canonical.tstr, canonical.uint32] at same
  obtain ⟨sameTh, afterTh⟩ :=
    canonicalCbor_bstr_append_injective (by omega) (by omega) same
  obtain ⟨sameLabel, afterLabel⟩ :=
    canonicalCbor_tstr_append_injective (by omega) (by omega) afterTh
  obtain ⟨sameContext, afterContext⟩ :=
    canonicalCbor_bstr_append_injective (by omega) (by omega) afterLabel
  have sameHead : cborHead 0 leftLen ++ [] = cborHead 0 rightLen ++ [] := by
    rw [List.append_nil, List.append_nil]
    exact afterContext
  obtain ⟨_, sameLen, _⟩ :=
    cborHead_append_injective (by decide) (by decide) leftLenFits
      rightLenFits sameHead
  exact ⟨sameTh, sameLabel, sameContext, sameLen⟩

theorem sigStructure_injective {leftContext leftProtected leftAad leftPayload
      rightContext rightProtected rightAad rightPayload : Bytes}
    (fits : (sigStructure platform leftContext leftProtected leftAad
      leftPayload).length < 2 ^ 32)
    (same : sigStructure platform leftContext leftProtected leftAad
        leftPayload =
      sigStructure platform rightContext rightProtected rightAad
        rightPayload) :
    leftContext = rightContext ∧ leftProtected = rightProtected ∧
      leftAad = rightAad ∧ leftPayload = rightPayload := by
  have rightFits := fits
  rw [same] at rightFits
  unfold sigStructure CborEncoder.list at fits rightFits same
  simp only [List.length_append, List.flatten_cons, List.flatten_nil,
    List.length_nil] at fits rightFits
  have leftContextShort := tstr_length_lt canonical leftContext
  have rightContextShort := tstr_length_lt canonical rightContext
  have leftProtectedShort := bstr_length_lt canonical leftProtected
  have rightProtectedShort := bstr_length_lt canonical rightProtected
  have leftAadShort := bstr_length_lt canonical leftAad
  have rightAadShort := bstr_length_lt canonical rightAad
  have leftPayloadShort := bstr_length_lt canonical leftPayload
  have rightPayloadShort := bstr_length_lt canonical rightPayload
  simp only [List.length_cons, List.length_nil, List.flatten_cons,
    List.flatten_nil, List.append_assoc, List.append_cancel_left_eq] at same
  rw [canonical.bstr, canonical.tstr] at same
  obtain ⟨sameContext, afterContext⟩ :=
    canonicalCbor_tstr_append_injective (by omega) (by omega) same
  obtain ⟨sameProtected, afterProtected⟩ :=
    canonicalCbor_bstr_append_injective (by omega) (by omega) afterContext
  obtain ⟨sameAad, afterAad⟩ :=
    canonicalCbor_bstr_append_injective (by omega) (by omega) afterProtected
  obtain ⟨samePayload, _⟩ :=
    canonicalCbor_bstr_append_injective (by omega) (by omega) afterAad
  exact ⟨sameContext, sameProtected, sameAad, samePayload⟩

/-- What is signed determines the transcript hash, the credentials and the
MAC. -/
theorem signatureStructGen_injective {leftTh leftIdCred leftCred leftEad
      leftMac rightTh rightIdCred rightCred rightEad rightMac message : Bytes}
    (left : signatureStructGen platform leftTh leftIdCred leftCred leftEad
      leftMac = .ok message)
    (right : signatureStructGen platform rightTh rightIdCred rightCred
      rightEad rightMac = .ok message) :
    leftTh = rightTh ∧ leftIdCred = rightIdCred ∧
      leftCred ++ leftEad = rightCred ++ rightEad ∧ leftMac = rightMac := by
  have sizes : credDefaultSize + shaDefaultSize + adDefaultSize < 2 ^ 32 := by
    decide
  have structureSize : signatureStructDefaultSize < 2 ^ 32 := by
    decide
  unfold signatureStructGen encodeByteString at left right
  simp only [outcome_bind_eq_ok, cborEncode_eq_ok, checkBufferSize_eq_ok,
    memcpy_eq_ok] at left right
  obtain ⟨_, ⟨_, rfl⟩, _, _, _, ⟨leftCopied, rfl⟩, leftFits, rfl⟩ := left
  obtain ⟨_, ⟨_, rfl⟩, _, _, _, ⟨rightCopied, rfl⟩, _, same⟩ := right
  obtain ⟨_, sameIdCred, sameTmp, sameMac⟩ :=
    sigStructure_injective canonical (by omega) same
  simp only [List.length_append] at leftCopied rightCopied
  have leftShort := bstr_length_lt canonical leftTh
  have rightShort := bstr_length_lt canonical rightTh
  simp only [List.append_assoc] at sameTmp
  rw [canonical.bstr] at sameTmp
  obtain ⟨sameTh, sameCred⟩ :=
    canonicalCbor_bstr_append_injective (by omega) (by omega) sameTmp
  exact ⟨sameTh, sameIdCred, sameCred, sameMac⟩

end Encodings

/-! ## Attestations -/

/-- The message that a signature is part of. -/
inductive SignedMessage where
  | message2
  | message3
  deriving DecidableEq, Repr

def SignedMessage.macLabel : SignedMessage → Bytes
  | .message2 => mac2Label
  | .message3 => mac3Label

theorem macLabel_injective : Function.Injective SignedMessage.macLabel := by
  intro left right same
  cases left with
  | message2 =>
      cases right with
      | message2 =>
          rfl
      | message3 =>
          exact absurd same (by decide)
  | message3 =>
      cases right with
      | message2 =>
          exact absurd same (by decide)
      | message3 =>
          rfl

/-- What a party signs and its peer checks: the messages so far, the
credentials and the key of the session. -/
structure Attestation where
  signed : SignedMessage
  suite : Suite
  pk : Bytes
  prk : Bytes
  message1 : Bytes
  gY : Bytes
  cR : Cx
  ciphertext2 : Bytes
  idCred : Bytes
  cred : Bytes
  ead : Bytes
  deriving DecidableEq, Repr

namespace Attestation

variable (platform : EdhocPlatform) (attestation : Attestation)

def transcript : Transcript where
  message1 := attestation.message1
  gY := attestation.gY
  cR := attestation.cR
  ciphertext2 := attestation.ciphertext2
  ciphertext3 := []

/-- `TH_2` for the second message and `TH_3` for the third. -/
def th : Outcome Bytes :=
  match attestation.signed with
  | .message2 =>
      attestation.transcript.th2 platform attestation.suite.edhocHash
  | .message3 =>
      attestation.transcript.th3 platform attestation.suite.edhocHash

/-- The byte string that is signed. -/
def toBeSigned : Outcome Bytes := do
  let th ← attestation.th platform
  let mac ←
    mac platform attestation.prk th attestation.idCred attestation.cred
      attestation.ead attestation.signed.macLabel false attestation.suite
  signatureStructGen platform th attestation.idCred attestation.cred
    attestation.ead mac

/-- The info for the MAC over the attestation. -/
def macInfo (th : Bytes) : Bytes :=
  hkdfInfo platform.cbor th attestation.signed.macLabel
    (attestation.idCred ++ attestation.cred ++ attestation.ead)
    (getHashLen attestation.suite.edhocHash)

/-- Different calls of `hkdf_expand` for the MACs have the same output. -/
def MacsCollide (left right : Attestation) : Prop :=
  ∃ leftTh rightTh tag,
    left.th platform = .ok leftTh ∧ right.th platform = .ok rightTh ∧
      (left.prk, left.macInfo platform leftTh) ≠
        (right.prk, right.macInfo platform rightTh) ∧
      platform.crypto.hkdfExpand left.suite.edhocHash left.prk
          (left.macInfo platform leftTh)
          (getHashLen left.suite.edhocHash) = some tag ∧
      platform.crypto.hkdfExpand right.suite.edhocHash right.prk
          (right.macInfo platform rightTh)
          (getHashLen right.suite.edhocHash) = some tag

/-- Different transcripts for the same message have the same hash at some
stage. -/
def HashesCollide (left right : Attestation) : Prop :=
  left.signed = right.signed ∧
    ∃ stage, Transcript.Collide platform left.suite.edhocHash
      left.transcript right.transcript stage

def Collide (left right : Attestation) : Prop :=
  MacsCollide platform left right ∨ HashesCollide platform left right

/-- What two attestations have in common when the same byte string is signed
for them.  `CIPHERTEXT_2` does not enter the signature of the second
message. -/
structure Agrees (left right : Attestation) : Prop where
  signed : left.signed = right.signed
  message1 : left.message1 = right.message1
  gY : left.gY = right.gY
  cR : left.cR = right.cR
  ciphertext2 : left.signed = .message3 → left.ciphertext2 = right.ciphertext2
  idCred : left.idCred = right.idCred
  credAndEad : left.cred ++ left.ead = right.cred ++ right.ead
  prk : left.prk = right.prk

end Attestation

section Agreement

variable {platform : EdhocPlatform} {left right attestation : Attestation}

theorem not_collide_self : ¬ Attestation.Collide platform attestation attestation := by
  rintro (⟨leftTh, rightTh, _, isLeft, isRight, different, _⟩ |
    ⟨_, stage, leftInput, rightInput, _, isLeft, isRight, different, _⟩)
  · rw [isLeft, Except.ok.injEq] at isRight
    subst isRight
    exact different rfl
  · rw [isLeft, Except.ok.injEq] at isRight
    exact different isRight

theorem toBeSigned_eq_ok {message : Bytes}
    (run : attestation.toBeSigned platform = .ok message) :
    ∃ th tag,
      attestation.th platform = .ok th ∧
        (attestation.macInfo platform th).length ≤ infoDefaultSize ∧
        platform.crypto.hkdfExpand attestation.suite.edhocHash attestation.prk
            (attestation.macInfo platform th)
            (getHashLen attestation.suite.edhocHash) = some tag ∧
        signatureStructGen platform th attestation.idCred attestation.cred
          attestation.ead tag = .ok message := by
  unfold Attestation.toBeSigned at run
  simp only [outcome_bind_eq_ok, mac_eq_ok, okmCalc_eq_ok] at run
  obtain ⟨th, isTh, tag, ⟨_, fits, expanded⟩, generated⟩ := run
  exact ⟨th, tag, isTh, fits, expanded, generated⟩

/-- The transcript hashes bind what goes into them. -/
theorem th_binds (canonical : platform.cbor.IsCanonical)
    (signed : left.signed = right.signed) {th : Bytes}
    (leftTh : left.th platform = .ok th)
    (rightTh : right.th platform = .ok th) :
    (left.message1 = right.message1 ∧ left.gY = right.gY ∧
        left.cR = right.cR ∧
        (left.signed = .message3 → left.ciphertext2 = right.ciphertext2)) ∨
      ∃ stage, Transcript.Collide platform left.suite.edhocHash
        left.transcript right.transcript stage := by
  have sameHash : right.suite.edhocHash = left.suite.edhocHash := by
    cases left.suite.edhocHash
    cases right.suite.edhocHash
    rfl
  unfold Attestation.th at leftTh rightTh
  rw [← signed, sameHash] at rightTh
  cases isSigned : left.signed with
  | message2 =>
      rw [isSigned] at leftTh rightTh
      rcases th2_binds canonical leftTh rightTh with same | collision
      · obtain ⟨message1, gY, cR⟩ := same
        refine Or.inl ⟨message1, gY, cR, ?_⟩
        intro isMessage3
        cases isMessage3
      · exact Or.inr collision
  | message3 =>
      rw [isSigned] at leftTh rightTh
      rcases th3_binds canonical leftTh rightTh with same | collision
      · obtain ⟨message1, gY, cR, ciphertext2⟩ := same
        exact Or.inl ⟨message1, gY, cR, fun _ => ciphertext2⟩
      · exact Or.inr collision

/-- Attestations for which the same byte string is signed agree. -/
theorem agrees_of_toBeSigned (canonical : platform.cbor.IsCanonical)
    {message : Bytes} (leftRun : left.toBeSigned platform = .ok message)
    (rightRun : right.toBeSigned platform = .ok message) :
    left.Agrees right ∨ Attestation.Collide platform left right := by
  obtain ⟨leftTh, leftTag, isLeftTh, leftFits, leftExpanded, leftStructure⟩ :=
    toBeSigned_eq_ok leftRun
  obtain ⟨rightTh, rightTag, isRightTh, rightFits, rightExpanded,
    rightStructure⟩ := toBeSigned_eq_ok rightRun
  obtain ⟨rfl, idCred, credAndEad, rfl⟩ :=
    signatureStructGen_injective canonical leftStructure rightStructure
  by_cases sameCall :
      (left.prk, left.macInfo platform leftTh) =
        (right.prk, right.macInfo platform leftTh)
  · obtain ⟨prk, sameInfo⟩ := Prod.mk.inj sameCall
    have hashLenFits : ∀ alg, getHashLen alg < 2 ^ 32 := by
      intro alg
      cases alg
      decide
    have infoSize : infoDefaultSize < 2 ^ 32 := by
      decide
    obtain ⟨_, sameLabel, _, _⟩ :=
      hkdfInfo_injective canonical (hashLenFits _) (hashLenFits _)
        (Nat.lt_of_le_of_lt leftFits infoSize) sameInfo
    have signed := macLabel_injective sameLabel
    rcases th_binds canonical signed isLeftTh isRightTh with same | collision
    · obtain ⟨message1, gY, cR, ciphertext2⟩ := same
      exact
        Or.inl ⟨signed, message1, gY, cR, ciphertext2, idCred, credAndEad,
          prk⟩
    · exact Or.inr (Or.inr ⟨signed, collision⟩)
  · exact
      Or.inr
        (Or.inl ⟨leftTh, leftTh, leftTag, isLeftTh, isRightTh, sameCall,
          leftExpanded, rightExpanded⟩)

end Agreement

end UoscoreUedhoc.Edhoc

import UoscoreUedhoc.Common.CanonicalCbor
import UoscoreUedhoc.Edhoc.TranscriptHash

/-!
# Transcript binding

Each of the three transcript hashes is a hash of the encodings of the one
before and of one more part of the messages.  Since the encodings can be read
back, equal values of `TH_4` come from equal messages unless two different byte
strings have the same hash at one of the four stages.
-/

namespace UoscoreUedhoc.Edhoc

open UoscoreUedhoc

/-- What the transcript hashes are computed from. -/
structure Transcript where
  message1 : Bytes
  gY : Bytes
  cR : Cx
  ciphertext2 : Bytes
  ciphertext3 : Bytes
  deriving DecidableEq, Repr

/-- The four hashes that are computed one after the other. -/
inductive HashStage where
  | message1
  | th2
  | th3
  | th4
  deriving DecidableEq, Repr

namespace Transcript

variable (platform : EdhocPlatform) (alg : HashAlg) (transcript : Transcript)

def th2 : Outcome Bytes :=
  th2Calculate platform alg transcript.message1 transcript.gY transcript.cR

def th3 : Outcome Bytes := do
  let th2 ← transcript.th2 platform alg
  th3Calculate platform alg th2 transcript.ciphertext2

/-- The chain of `th2_calculate`, `th3_calculate` and `th4_calculate`. -/
def th4 : Outcome Bytes := do
  let th3 ← transcript.th3 platform alg
  th4Calculate platform alg th3 transcript.ciphertext3

/-- The byte string that the chain hashes at a stage. -/
def hashInput : HashStage → Outcome Bytes
  | .message1 => .ok transcript.message1
  | .th2 => do
      let hashMsg1 ←
        tryExpect (platform.crypto.hash alg transcript.message1)
      th2InputEncode platform hashMsg1 transcript.gY transcript.cR
        th2InputDefaultSize
  | .th3 => do
      let th2 ← transcript.th2 platform alg
      th3InputEncode platform th2 transcript.ciphertext2
        ((th2.length + transcript.ciphertext2.length + 6) % 2 ^ 32)
  | .th4 => do
      let th3 ← transcript.th3 platform alg
      th4InputEncode platform th3 transcript.ciphertext3
        ((th3.length + transcript.ciphertext3.length + encodingOverhead)
          % 2 ^ 32)

/-- Two executions hash different byte strings at the same stage with the same
result. -/
def Collide (left right : Transcript) (stage : HashStage) : Prop :=
  ∃ leftInput rightInput digest,
    left.hashInput platform alg stage = .ok leftInput ∧
      right.hashInput platform alg stage = .ok rightInput ∧
      leftInput ≠ rightInput ∧
      platform.crypto.hash alg leftInput = some digest ∧
      platform.crypto.hash alg rightInput = some digest

end Transcript

/-! ## One stage -/

section Stages

variable {platform : EdhocPlatform} {alg : HashAlg}

/-- `TH_2` is the hash of its stage, which the hash of `message_1` enters. -/
theorem th2_eq_ok {transcript : Transcript} {digest : Bytes} :
    transcript.th2 platform alg = .ok digest ↔
      ∃ hashMsg1 input,
        platform.crypto.hash alg transcript.message1 = some hashMsg1 ∧
          th2InputEncode platform hashMsg1 transcript.gY transcript.cR
            th2InputDefaultSize = .ok input ∧
          platform.crypto.hash alg input = some digest := by
  unfold Transcript.th2 th2Calculate
  simp only [outcome_bind_eq_ok, tryExpect_eq_ok]
  constructor
  · intro run
    obtain ⟨hashMsg1, hashed, input, encoded, result⟩ := run
    exact ⟨hashMsg1, input, hashed, encoded, result⟩
  · intro run
    obtain ⟨hashMsg1, input, hashed, encoded, result⟩ := run
    exact ⟨hashMsg1, hashed, input, encoded, result⟩

theorem th3_eq_ok {transcript : Transcript} {digest : Bytes}
    (run : transcript.th3 platform alg = .ok digest) :
    ∃ th2 input,
      transcript.th2 platform alg = .ok th2 ∧
        th3InputEncode platform th2 transcript.ciphertext2
          ((th2.length + transcript.ciphertext2.length + 6) % 2 ^ 32) =
            .ok input ∧
        platform.crypto.hash alg input = some digest := by
  unfold Transcript.th3 th3Calculate at run
  simp only [outcome_bind_eq_ok, tryExpect_eq_ok] at run
  obtain ⟨th2, earlier, _, _, input, encoded, result⟩ := run
  exact ⟨th2, input, earlier, encoded, result⟩

theorem th4_eq_ok {transcript : Transcript} {digest : Bytes}
    (run : transcript.th4 platform alg = .ok digest) :
    ∃ th3 input,
      transcript.th3 platform alg = .ok th3 ∧
        th4InputEncode platform th3 transcript.ciphertext3
          ((th3.length + transcript.ciphertext3.length + encodingOverhead)
            % 2 ^ 32) = .ok input ∧
        platform.crypto.hash alg input = some digest := by
  unfold Transcript.th4 th4Calculate at run
  simp only [outcome_bind_eq_ok, tryExpect_eq_ok] at run
  obtain ⟨th3, earlier, _, _, input, encoded, result⟩ := run
  exact ⟨th3, input, earlier, encoded, result⟩

/-! ## Reading the inputs back -/

section Encodings

variable (canonical : platform.cbor.IsCanonical)

include canonical

theorem bstr_length_lt (value : Bytes) :
    value.length < (platform.cbor.bstr value).length := by
  rw [canonical.bstr]
  simp only [canonicalCbor, List.length_append, cborHead_length]
  split_ifs <;> omega

theorem cx_encode_append_injective {left right : Cx}
    (leftFits : (left.encode platform.cbor).length < 2 ^ 32)
    (rightFits : (right.encode platform.cbor).length < 2 ^ 32)
    (same : left.encode platform.cbor = right.encode platform.cbor) :
    left = right := by
  have sameAppend :
      left.encode platform.cbor ++ [] = right.encode platform.cbor ++ [] := by
    rw [same]
  cases left with
  | int leftValue =>
      cases right with
      | int rightValue =>
          simp only [Cx.encode, canonical.int32] at sameAppend
          rw [(canonicalCbor_int32_append_injective sameAppend).1]
      | bstr rightValue =>
          have rightShort := bstr_length_lt canonical rightValue
          simp only [Cx.encode] at rightFits
          simp only [Cx.encode, canonical.int32, canonical.bstr] at sameAppend
          exact absurd sameAppend
            (canonicalCbor_int32_append_ne_bstr (by omega))
  | bstr leftValue =>
      have leftShort := bstr_length_lt canonical leftValue
      simp only [Cx.encode] at leftFits
      cases right with
      | int rightValue =>
          simp only [Cx.encode, canonical.int32, canonical.bstr] at sameAppend
          exact absurd sameAppend.symm
            (canonicalCbor_int32_append_ne_bstr (by omega))
      | bstr rightValue =>
          have rightShort := bstr_length_lt canonical rightValue
          simp only [Cx.encode] at rightFits
          simp only [Cx.encode, canonical.bstr] at sameAppend
          rw [(canonicalCbor_bstr_append_injective (by omega) (by omega)
            sameAppend).1]

/-- The input of `TH_2` determines its three parts. -/
theorem th2InputEncode_injective {leftHash rightHash leftGY rightGY : Bytes}
    {leftCR rightCR : Cx} {leftLen rightLen : Nat} {input : Bytes}
    (leftLenFits : leftLen < 2 ^ 32) (rightLenFits : rightLen < 2 ^ 32)
    (leftEncoded :
      th2InputEncode platform leftHash leftGY leftCR leftLen = .ok input)
    (rightEncoded :
      th2InputEncode platform rightHash rightGY rightCR rightLen =
        .ok input) :
    leftHash = rightHash ∧ leftGY = rightGY ∧ leftCR = rightCR := by
  unfold th2InputEncode at leftEncoded rightEncoded
  obtain ⟨leftFits, leftInput⟩ := cborEncode_eq_ok.mp leftEncoded
  obtain ⟨rightFits, rightInput⟩ := cborEncode_eq_ok.mp rightEncoded
  have same := leftInput.symm.trans rightInput
  have leftHashShort := bstr_length_lt canonical leftHash
  have rightHashShort := bstr_length_lt canonical rightHash
  have leftGYShort := bstr_length_lt canonical leftGY
  have rightGYShort := bstr_length_lt canonical rightGY
  simp only [List.length_append] at leftFits rightFits
  simp only [List.append_assoc] at same
  rw [canonical.bstr] at same
  obtain ⟨sameHash, sameRest⟩ :=
    canonicalCbor_bstr_append_injective (by omega) (by omega) same
  obtain ⟨sameGY, sameCR⟩ :=
    canonicalCbor_bstr_append_injective (by omega) (by omega) sameRest
  have sameCx :=
    cx_encode_append_injective canonical (by omega) (by omega) sameCR
  exact ⟨sameHash, sameGY, sameCx⟩

/-- The inputs of `TH_3` and `TH_4` determine their two parts. -/
theorem twoStrings_injective {leftFirst rightFirst leftSecond rightSecond : Bytes}
    {leftLen rightLen : Nat} {input : Bytes}
    (leftLenFits : leftLen < 2 ^ 32) (rightLenFits : rightLen < 2 ^ 32)
    (leftEncoded :
      cborEncode
        (platform.cbor.bstr leftFirst ++ platform.cbor.bstr leftSecond)
        leftLen = .ok input)
    (rightEncoded :
      cborEncode
        (platform.cbor.bstr rightFirst ++ platform.cbor.bstr rightSecond)
        rightLen = .ok input) :
    leftFirst = rightFirst ∧ leftSecond = rightSecond := by
  obtain ⟨leftFits, leftInput⟩ := cborEncode_eq_ok.mp leftEncoded
  obtain ⟨rightFits, rightInput⟩ := cborEncode_eq_ok.mp rightEncoded
  have same := leftInput.symm.trans rightInput
  have leftShort := bstr_length_lt canonical leftFirst
  have rightShort := bstr_length_lt canonical rightFirst
  simp only [List.length_append] at leftFits rightFits
  rw [canonical.bstr] at same
  obtain ⟨sameFirst, sameSecond⟩ :=
    canonicalCbor_bstr_append_injective (by omega) (by omega) same
  exact ⟨sameFirst, canonicalCbor_bstr_injective sameSecond⟩

end Encodings

/-! ## The chain -/

section Chain

variable (canonical : platform.cbor.IsCanonical) {left right : Transcript}

include canonical

/-- Equal values of `TH_2` bind `message_1`, `G_Y` and `C_R`. -/
theorem th2_binds {digest : Bytes}
    (leftRun : left.th2 platform alg = .ok digest)
    (rightRun : right.th2 platform alg = .ok digest) :
    (left.message1 = right.message1 ∧ left.gY = right.gY ∧
        left.cR = right.cR) ∨
      ∃ stage, Transcript.Collide platform alg left right stage := by
  obtain ⟨leftHash, leftInput, leftHashed, leftEncoded, leftResult⟩ :=
    th2_eq_ok.mp leftRun
  obtain ⟨rightHash, rightInput, rightHashed, rightEncoded, rightResult⟩ :=
    th2_eq_ok.mp rightRun
  by_cases sameInput : leftInput = rightInput
  · subst sameInput
    obtain ⟨sameHash, sameGY, sameCR⟩ :=
      th2InputEncode_injective canonical (by decide) (by decide) leftEncoded
        rightEncoded
    subst sameHash
    by_cases sameMessage : left.message1 = right.message1
    · exact Or.inl ⟨sameMessage, sameGY, sameCR⟩
    · exact Or.inr ⟨.message1, left.message1, right.message1, leftHash, rfl,
        rfl, sameMessage, leftHashed, rightHashed⟩
  · refine Or.inr ⟨.th2, leftInput, rightInput, digest, ?_, ?_, sameInput,
      leftResult, rightResult⟩
    · simp only [Transcript.hashInput, outcome_bind_eq_ok, tryExpect_eq_ok]
      exact ⟨leftHash, leftHashed, leftEncoded⟩
    · simp only [Transcript.hashInput, outcome_bind_eq_ok, tryExpect_eq_ok]
      exact ⟨rightHash, rightHashed, rightEncoded⟩

/-- Equal values of `TH_3` bind `CIPHERTEXT_2` besides. -/
theorem th3_binds {digest : Bytes}
    (leftRun : left.th3 platform alg = .ok digest)
    (rightRun : right.th3 platform alg = .ok digest) :
    (left.message1 = right.message1 ∧ left.gY = right.gY ∧
        left.cR = right.cR ∧ left.ciphertext2 = right.ciphertext2) ∨
      ∃ stage, Transcript.Collide platform alg left right stage := by
  obtain ⟨leftTh2, leftInput, leftEarlier, leftEncoded, leftResult⟩ :=
    th3_eq_ok leftRun
  obtain ⟨rightTh2, rightInput, rightEarlier, rightEncoded, rightResult⟩ :=
    th3_eq_ok rightRun
  by_cases sameInput : leftInput = rightInput
  · subst sameInput
    obtain ⟨sameTh2, sameCiphertext⟩ :=
      twoStrings_injective canonical (Nat.mod_lt _ (by decide))
        (Nat.mod_lt _ (by decide)) leftEncoded rightEncoded
    subst sameTh2
    rcases th2_binds canonical leftEarlier rightEarlier with fields | collision
    · obtain ⟨sameMessage, sameGY, sameCR⟩ := fields
      exact Or.inl ⟨sameMessage, sameGY, sameCR, sameCiphertext⟩
    · exact Or.inr collision
  · refine Or.inr ⟨.th3, leftInput, rightInput, digest, ?_, ?_, sameInput,
      leftResult, rightResult⟩
    · simp only [Transcript.hashInput, outcome_bind_eq_ok]
      exact ⟨leftTh2, leftEarlier, leftEncoded⟩
    · simp only [Transcript.hashInput, outcome_bind_eq_ok]
      exact ⟨rightTh2, rightEarlier, rightEncoded⟩

/-- Two executions of the chain with the same `TH_4` have the same
`message_1`, `G_Y`, `C_R`, `CIPHERTEXT_2` and `CIPHERTEXT_3`, or they exhibit a
collision of the hash. -/
theorem transcript_bound {digest : Bytes}
    (leftRun : left.th4 platform alg = .ok digest)
    (rightRun : right.th4 platform alg = .ok digest) :
    left = right ∨
      ∃ stage, Transcript.Collide platform alg left right stage := by
  obtain ⟨leftTh3, leftInput, leftEarlier, leftEncoded, leftResult⟩ :=
    th4_eq_ok leftRun
  obtain ⟨rightTh3, rightInput, rightEarlier, rightEncoded, rightResult⟩ :=
    th4_eq_ok rightRun
  by_cases sameInput : leftInput = rightInput
  · subst sameInput
    obtain ⟨sameTh3, sameCiphertext⟩ :=
      twoStrings_injective canonical (Nat.mod_lt _ (by decide))
        (Nat.mod_lt _ (by decide)) leftEncoded rightEncoded
    subst sameTh3
    rcases th3_binds canonical leftEarlier rightEarlier with fields | collision
    · obtain ⟨sameMessage, sameGY, sameCR, sameCiphertext2⟩ := fields
      left
      cases left
      cases right
      simp_all
    · exact Or.inr collision
  · refine Or.inr ⟨.th4, leftInput, rightInput, digest, ?_, ?_, sameInput,
      leftResult, rightResult⟩
    · simp only [Transcript.hashInput, outcome_bind_eq_ok]
      exact ⟨leftTh3, leftEarlier, leftEncoded⟩
    · simp only [Transcript.hashInput, outcome_bind_eq_ok]
      exact ⟨rightTh3, rightEarlier, rightEncoded⟩

end Chain

end Stages

/-! ### The first test vector of the repository -/

def v1Message1 : Bytes :=
  [3, 0, 0x58, 0x20, 0x3A, 0xA9, 0xEB, 0x32, 1, 0xB3, 0x36, 0x7B, 0x8C, 0x8B,
    0xE3, 0x8D, 0x91, 0xE5, 0x7A, 0x2B, 0x43, 0x3E, 0x67, 0x88, 0x8C, 0x86,
    0xD2, 0xAC, 0, 0x6A, 0x52, 8, 0x42, 0xED, 0x50, 0x37, 0x0C]

def v1GY : Bytes :=
  [0x25, 0x54, 0x91, 0xB0, 0x5A, 0x39, 0x89, 0xFF, 0x2D, 0x3F, 0xFE, 0xA6,
    0x20, 0x98, 0xAA, 0xB5, 0x7C, 0x16, 0x0F, 0x29, 0x4E, 0xD9, 0x48, 1, 0x8B,
    0x41, 0x90, 0xF7, 0xD1, 0x61, 0x82, 0x4E]

def v1Ciphertext2 : Bytes :=
  [0x0F, 0xF0, 0x4C, 0x29, 0x4F, 0x4A, 0xC6, 2, 0xCF, 0x78]

def v1Ciphertext3 : Bytes :=
  [0xBE, 1, 0x46, 0xC1, 0x36, 0xAC, 0x2E, 0xFF, 0xD4, 0x53, 0xA7, 0x5E, 0xFA,
    0x90, 0x89, 0x6F, 0x65, 0x3B]

def v1HashMessage1 : Bytes :=
  [0x9B, 0xDD, 0xB0, 0xCD, 0x55, 0x48, 0x7F, 0x82, 0xA8, 0x6F, 0xB7, 0x2A,
    0x8B, 0xB3, 0x58, 0x52, 0x68, 0x91, 0xA0, 0xA6, 0xC9, 8, 0x61, 0x24, 0x12,
    0xF5, 0xAF, 0x29, 0x9D, 0xAF, 1, 0x96]

def v1Th2 : Bytes :=
  [0x71, 0xA6, 0xC7, 0xC5, 0xBA, 0x9A, 0xD4, 0x7F, 0xE7, 0x2D, 0xA4, 0xDC,
    0x35, 0x9B, 0xF6, 0xB2, 0x76, 0xD3, 0x51, 0x59, 0x68, 0x71, 0x1B, 0x9A,
    0x91, 0x1C, 0x71, 0xFC, 9, 0x6A, 0xEE, 0x0E]

def v1Th3 : Bytes :=
  [0xA4, 0x90, 7, 0xCE, 0x54, 0x76, 0x2E, 0x46, 0x7C, 0x4E, 0x4A, 0x44, 0x69,
    0x2F, 0x20, 0x70, 0xD3, 0xE9, 0xEB, 0, 0xF9, 0x5A, 0xC2, 0x62, 0x9B, 0x2B,
    0xBE, 0xF7, 0xFB, 0x24, 0xA3, 0x70]

def v1Th4 : Bytes :=
  [0x4B, 0x9A, 0xDD, 0x2A, 0x9E, 0xEB, 0x88, 0x49, 0x71, 0x6C, 0x79, 0x68,
    0x78, 0x4F, 0x55, 0x40, 0xDD, 0x64, 0xA3, 0xBB, 7, 0xF8, 0xD0, 0, 0xAD,
    0xCE, 0x88, 0xB6, 0x30, 0xD8, 0x84, 0xEB]


/-- The calls of `hash` in the exchange of the vector. -/
def v1HashRecords : List (Bytes × Bytes) :=
  [ (v1Message1, v1HashMessage1),
    (canonicalCbor.bstr v1HashMessage1 ++ canonicalCbor.bstr v1GY ++
      canonicalCbor.bstr [], v1Th2),
    (canonicalCbor.bstr v1Th2 ++ canonicalCbor.bstr v1Ciphertext2, v1Th3),
    (canonicalCbor.bstr v1Th3 ++ canonicalCbor.bstr v1Ciphertext3, v1Th4) ]

/-- A platform that knows the hashes of the vector. -/
def v1HashPlatform : EdhocPlatform where
  crypto :=
    EdhocWrapper.ofRecords
      { aead := [], hash := v1HashRecords, hkdfExtract := []
        hkdfExpand := [], sharedSecret := [], sign := [] }
      { aead := by simp
        hash := by decide
        hkdfExtract := by simp
        hkdfExpand := by simp
        sign := by simp }
  cbor := canonicalMapCbor
  zcbor := canonicalZcbor

def v1Transcript : Transcript where
  message1 := v1Message1
  gY := v1GY
  cR := .bstr []
  ciphertext2 := v1Ciphertext2
  ciphertext3 := v1Ciphertext3

theorem v1Transcript_th4 :
    v1Transcript.th4 v1HashPlatform .sha256 = .ok v1Th4 := by
  decide +kernel

/-- Two executions over the messages of the vector. -/
theorem transcript_bound_v1 :
    v1Transcript = v1Transcript ∨
      ∃ stage, Transcript.Collide v1HashPlatform .sha256 v1Transcript
        v1Transcript stage :=
  transcript_bound canonicalCbor_isCanonical v1Transcript_th4 v1Transcript_th4

end UoscoreUedhoc.Edhoc

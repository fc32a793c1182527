import UoscoreUedhoc.Oscore.RequestBuffers

/-!
# What is encrypted

`coap2oscore` encrypts as many bytes as it has counted for the plaintext.  Where
`plaintext_setup` writes fewer, the last of them are those that the buffer held
before.  With these bytes as a parameter, this module says on which packets the
steps up to the ciphertext are defined, and for which a ciphertext is made.
-/

namespace UoscoreUedhoc.Oscore

open UoscoreUedhoc
open Update

/-! ## The steps up to the ciphertext -/

/-- The bytes that `plaintext_setup` writes into a plaintext of `len` bytes. -/
def plaintextWritten (packet : OCoapPacket) (eOptions : List OCoapOption)
    (len : Nat) : Outcome Bytes := do
  let optBytesLen := maximalOptionsLen eOptions % 2 ^ 16
  checkBufferSize maxEOptions optBytesLen
  let optionBytes ← optionsIntoByteString optBytesLen eOptions
  let optionBytes ←
    memcpyS (uint32 (len - 1)) optionBytes optionBytes.length
  let front := packet.header.code :: optionBytes
  if packet.payloadLen = 0 then
    .ok front
  else
    let offset := front.length + 1
    let payload ←
      memcpyS (uint32 (len - offset)) packet.payload packet.payloadLen
    if maxPlaintextLen < offset + payload.length then
      undefinedBehaviour
    else
      .ok (front ++ 0xFF :: payload)

/-- The first `len` bytes of a buffer that held `residue` before `bytes` were
written. -/
def overwritten (residue bytes : Bytes) (len : Nat) : Bytes :=
  (bytes ++ residue.drop bytes.length).take len

/-- The part of `coap2oscore` between the options of the packet and the OSCORE
packet: the value of the OSCORE option and the ciphertext.  `residue` is what
`plaintext_bytes` held before. -/
def encryptedParts (platform : Platform) (residue : Bytes)
    (packet : OCoapPacket) (options : List OCoapOption) (c : Context) :
    Outcome (Bytes × Bytes) := do
  let eu := euOptionsExtract 0 0 0 options
  let len := plaintextLen eu.eOptionsLen packet.payloadLen
  checkBufferSize maxPlaintextLen len
  let written ← plaintextWritten packet eu.eOptions len
  let plaintext := overwritten residue written len
  let valued := exec (optionValue platform packet options) c
  let value ← valued.1
  checkBufferSize maxCiphertextLen (plaintext.length + authTagLen)
  let ciphertext ← plaintextEncrypt platform valued.2 plaintext
  .ok (value, ciphertext)

/-- The OSCORE packet that is made of these parts. -/
def oscorePacketOver (platform : Platform) (residue : Bytes)
    (packet : OCoapPacket) (c : Context) : Outcome OCoapPacket := do
  let options ← orUndefined packet.options
  let (value, ciphertext) ← encryptedParts platform residue packet options c
  oscorePkgGenerate packet (euOptionsExtract 0 0 0 options).uOptions ciphertext
    (oscoreOption value)

/-! ## The conditions -/

/-- The plaintext and its E-options pass the checks in front of the conversion
of the E-options. -/
structure ReachesEOptions (packet : OCoapPacket)
    (options : List OCoapOption) : Prop where
  plaintext :
    plaintextLen (euOptionsExtract 0 0 0 options).eOptionsLen
      packet.payloadLen ≤ maxPlaintextLen
  eOptions :
    maximalOptionsLen (euOptionsExtract 0 0 0 options).eOptions ≤ maxEOptions

/-- The copies of `eLen` bytes of E-options and of the payload into a plaintext
of `len` bytes pass their checks. -/
structure CopiesPass (eLen payloadLen len : Nat) : Prop where
  eOptions : eLen ≤ uint32 ((len : Int) - 1)
  payload :
    payloadLen ≠ 0 →
      payloadLen ≤ uint32 ((len : Int) - (eLen + 1 + 1 : Nat))

/-- The copies into the plaintext of a packet pass their checks. -/
def PlaintextPasses (packet : OCoapPacket) (options : List OCoapOption) :
    Prop :=
  let eu := euOptionsExtract 0 0 0 options
  CopiesPass (optionsWritten eu.eOptions).length packet.payloadLen
    (plaintextLen eu.eOptionsLen packet.payloadLen)

/-- Where the E-options are converted, their values are there, and what passes
the checks of the copies lies inside the buffer. -/
def PlaintextDefined (packet : OCoapPacket) (options : List OCoapOption) :
    Prop :=
  ReachesEOptions packet options →
    HasValues (euOptionsExtract 0 0 0 options).eOptions ∧
      (PlaintextPasses packet options → packet.payloadLen ≠ 0 →
        (optionsWritten (euOptionsExtract 0 0 0 options).eOptions).length +
          1 + 1 + packet.payloadLen ≤ maxPlaintextLen)

/-- The AAD with which a packet is encrypted: a response takes that of its
request. -/
def usedAad (platform : Platform) (packet : OCoapPacket) (c : Context) :
    Bytes :=
  if isRequest packet then requestAad platform.toCborEncoder c.nextRequest
  else c.rrc.aad

/-- A packet passes all checks up to the ciphertext. -/
structure Sealed (platform : Platform) (packet : OCoapPacket)
    (options : List OCoapOption) (c : Context) : Prop where
  reaches : ReachesEOptions packet options
  passes : PlaintextPasses packet options
  numbered :
    isRequest packet = true → c.sc.senderSeqNum.toNat < 2 ^ 40
  aad :
    isRequest packet = true →
      (requestAad platform.toCborEncoder c.nextRequest).length ≤
        c.rrc.aad.length
  aadShort :
    (usedAad platform packet c).length + encrypt0EncodingOverhead ≤ maxAadLen
  encoded :
    (encStructure platform.toCborEncoder (usedAad platform packet c)).length ≤
      (usedAad platform packet c).length + encrypt0EncodingOverhead

/-! ## The plaintext -/

section Plaintext

variable {packet : OCoapPacket} {eOptions : List OCoapOption} {len : Nat}

theorem plaintextSetup_eq :
    plaintextSetup packet eOptions len =
      plaintextWritten packet eOptions len >>= writtenPrefix len := by
  unfold plaintextSetup plaintextWritten
  simp only [bind_assoc]
  apply outcome_bind_congr
  intro _
  apply outcome_bind_congr
  intro _
  apply outcome_bind_congr
  intro optionBytes
  split
  · rfl
  · rw [bind_assoc]
    apply outcome_bind_congr
    intro payload
    split
    · rfl
    · rfl

theorem overwritten_length {residue bytes : Bytes}
    (room : len ≤ residue.length) :
    (overwritten residue bytes len).length = len := by
  unfold overwritten
  rw [List.length_take, List.length_append, List.length_drop]
  omega

/-- Where enough is written, nothing of the residue is left. -/
theorem overwritten_of_le {residue bytes : Bytes}
    (enough : len ≤ bytes.length) :
    overwritten residue bytes len = bytes.take len :=
  List.take_append_of_le_length enough

/-- With values and room for the E-options, the plaintext is a question of
lengths. -/
theorem plaintextWritten_isOk_iff (values : HasValues eOptions)
    (reserved : maximalOptionsLen eOptions ≤ maxEOptions)
    (available : packet.payloadLen ≤ packet.payload.length)
    (inside :
      CopiesPass (optionsWritten eOptions).length packet.payloadLen len →
        packet.payloadLen ≠ 0 →
        (optionsWritten eOptions).length + 1 + 1 + packet.payloadLen ≤
          maxPlaintextLen) :
    (∃ bytes, plaintextWritten packet eOptions len = .ok bytes) ↔
      CopiesPass (optionsWritten eOptions).length packet.payloadLen len := by
  have small : maxEOptions = 30 := rfl
  have whole :
      maximalOptionsLen eOptions % 2 ^ 16 = maximalOptionsLen eOptions :=
    Nat.mod_eq_of_lt (by omega)
  have written :
      optionsIntoByteString (maximalOptionsLen eOptions) eOptions =
        .ok (optionsWritten eOptions) :=
    optionsIntoByteString_eq_ok.mpr
      ⟨values, optionsWritten_length_le values, rfl⟩
  unfold plaintextWritten
  dsimp only
  rw [whole, checkBufferSize_of_le reserved, outcome_ok_bind, written,
    outcome_ok_bind]
  generalize optionsWritten eOptions = eBytes at inside ⊢
  constructor
  · intro done
    obtain ⟨bytes, done⟩ := done
    obtain ⟨optionBytes, copied, rest⟩ := outcome_bind_eq_ok.mp done
    obtain ⟨eFits, isWhole⟩ := memcpyS_whole_eq_ok.mp copied
    refine ⟨eFits, fun present => ?_⟩
    rw [if_neg present, isWhole] at rest
    obtain ⟨payload, payloadCopied, _⟩ := outcome_bind_eq_ok.mp rest
    exact (memcpyS_eq_ok.mp payloadCopied).1
  · intro passes
    rw [memcpyS_whole passes.eOptions, outcome_ok_bind]
    by_cases empty : packet.payloadLen = 0
    · rw [if_pos empty]
      exact ⟨_, rfl⟩
    · have copied :=
        memcpyS_eq_ok.mpr ⟨passes.payload empty, available, rfl⟩
      have room := inside passes empty
      rw [if_neg empty, List.length_cons, copied, outcome_ok_bind,
        List.length_take_of_le available, if_neg (by omega)]
      exact ⟨_, rfl⟩

/-- The plaintext is undefined where a value is missing, and where the lengths
wrap around so that the payload comes behind the buffer. -/
theorem plaintextWritten_eq_undefined
    (few : maximalOptionsLen eOptions < 2 ^ 16)
    (available : packet.payloadLen ≤ packet.payload.length) :
    plaintextWritten packet eOptions len = undefinedBehaviour ↔
      maximalOptionsLen eOptions ≤ maxEOptions ∧
        ¬ (HasValues eOptions ∧
          (CopiesPass (optionsWritten eOptions).length packet.payloadLen len →
            packet.payloadLen ≠ 0 →
            (optionsWritten eOptions).length + 1 + 1 + packet.payloadLen ≤
              maxPlaintextLen)) := by
  unfold plaintextWritten
  dsimp only
  rw [Nat.mod_eq_of_lt few]
  by_cases reserved : maximalOptionsLen eOptions ≤ maxEOptions
  · rw [checkBufferSize_of_le reserved, outcome_ok_bind]
    simp only [reserved, true_and]
    by_cases values : HasValues eOptions
    · have written :
          optionsIntoByteString (maximalOptionsLen eOptions) eOptions =
            .ok (optionsWritten eOptions) :=
        optionsIntoByteString_eq_ok.mpr
          ⟨values, optionsWritten_length_le values, rfl⟩
      rw [written, outcome_ok_bind]
      simp only [values, true_and]
      generalize optionsWritten eOptions = eBytes
      constructor
      · intro stops inside
        rcases outcome_bind_eq_undefined.mp stops with
          overrun | ⟨optionBytes, copied, rest⟩
        · exact absurd (memcpyS_eq_undefined.mp overrun).2 (Nat.lt_irrefl _)
        · obtain ⟨eFits, isWhole⟩ := memcpyS_whole_eq_ok.mp copied
          rw [isWhole] at rest
          split at rest
          · cases rest
          · rename_i present
            rcases outcome_bind_eq_undefined.mp rest with
              overrun | ⟨payload, payloadCopied, last⟩
            · exact absurd (memcpyS_eq_undefined.mp overrun).2 (by omega)
            · obtain ⟨fits, _, rfl⟩ := memcpyS_eq_ok.mp payloadCopied
              have room := inside ⟨eFits, fun _ => fits⟩ present
              rw [List.length_cons, List.length_take_of_le available,
                if_neg (by omega)] at last
              cases last
      · intro outside
        push Not at outside
        obtain ⟨passes, present, beyond⟩ := outside
        have copied :=
          memcpyS_eq_ok.mpr ⟨passes.payload present, available, rfl⟩
        rw [memcpyS_whole passes.eOptions, outcome_ok_bind, if_neg present,
          List.length_cons, copied, outcome_ok_bind,
          List.length_take_of_le available, if_pos beyond]
    · apply iff_of_true
      · apply outcome_bind_eq_undefined.mpr
        left
        exact (optionsIntoByteString_eq_undefined (Nat.le_refl _)).mpr values
      · exact fun both => values both.1
  · have refused :
        checkBufferSize maxEOptions (maximalOptionsLen eOptions) =
          fail .bufferToSmall :=
      if_pos (Nat.lt_of_not_le reserved)
    rw [refused]
    apply iff_of_false
    · intro impossible
      cases impossible
    · exact fun both => reserved both.1

end Plaintext

section Follows

variable {platform : Platform} {residue : Bytes} {packet : OCoapPacket}
  {c : Context}

/-- What `coap2oscorePacket` returns, without what it leaves in the context. -/
theorem coap2oscorePacket_outcome :
    (exec (coap2oscorePacket platform packet) c).1 = (do
      let options ← orUndefined packet.options
      let eu := euOptionsExtract 0 0 0 options
      let len := plaintextLen eu.eOptionsLen packet.payloadLen
      checkBufferSize maxPlaintextLen len
      let plaintext ← plaintextSetup packet eu.eOptions len
      let valued := exec (optionValue platform packet options) c
      let value ← valued.1
      checkBufferSize maxCiphertextLen (plaintext.length + authTagLen)
      let ciphertext ← plaintextEncrypt platform valued.2 plaintext
      oscorePkgGenerate packet eu.uOptions ciphertext
        (oscoreOption value)) := by
  unfold coap2oscorePacket
  simp only [exec_lift_bind_outcome]
  apply outcome_bind_congr
  intro options
  apply outcome_bind_congr
  intro _
  apply outcome_bind_congr
  intro plaintext
  rw [exec_bind]
  generalize exec (optionValue platform packet options) c = valued
  obtain ⟨value, after⟩ := valued
  cases value with
  | error fault =>
      rfl
  | ok value =>
      simp only [exec_lift_bind_outcome, exec_get_bind]
      rfl

/-- Where `coap2oscore` does not encrypt bytes that nothing has written, it makes
this packet. -/
theorem oscorePacketOver_follows :
    Follows (oscorePacketOver platform residue packet c)
      (exec (coap2oscorePacket platform packet) c).1 := by
  rw [coap2oscorePacket_outcome]
  unfold oscorePacketOver encryptedParts
  dsimp only
  apply Follows.bind (Follows.refl _)
  intro options
  rw [bind_assoc]
  apply Follows.bind (Follows.refl _)
  intro _
  rw [plaintextSetup_eq, bind_assoc, bind_assoc]
  apply Follows.bind (Follows.refl _)
  intro written
  by_cases enough :
      plaintextLen (euOptionsExtract 0 0 0 options).eOptionsLen
        packet.payloadLen ≤ written.length
  · rw [writtenPrefix_eq_ok.mpr ⟨enough, rfl⟩, outcome_ok_bind,
      overwritten_of_le enough]
    simp only [bind_assoc, outcome_ok_bind]
    exact Follows.refl _
  · have unwritten :
        writtenPrefix
            (plaintextLen (euOptionsExtract 0 0 0 options).eOptionsLen
              packet.payloadLen) written = undefinedBehaviour :=
      if_pos (Nat.lt_of_not_le enough)
    rw [unwritten]
    exact Or.inl rfl

end Follows

/-! ## The OSCORE option -/

section OptionValue

variable {platform : Platform} {packet : OCoapPacket}
  {options : List OCoapOption} {c after : Context} {value : Bytes}

theorem senderSeqNum2piv_defined (ssn : UInt64) :
    senderSeqNum2piv ssn ≠ undefinedBehaviour := by
  have loopDefined : ∀ i ≤ (ssnBytes ssn).length,
      pivLoop (ssnBytes ssn) i ≠ undefinedBehaviour := by
    intro i
    induction i with
    | zero =>
        intro _ impossible
        cases impossible
    | succ i inductionHypothesis =>
        intro inside
        unfold pivLoop
        split
        · exact memcpyS_defined inside
        · exact inductionHypothesis (Nat.le_of_succ_le inside)
  exact loopDefined 8 (Nat.le_refl 8)

theorem requestOption_defined (fit : IdsFit c)
    (ivShort : c.cc.commonIv.length ≤ nonceLen) :
    (exec (requestOption platform options) c).1 ≠ undefinedBehaviour := by
  by_cases small : c.sc.senderSeqNum.toNat < 2 ^ 40
  · by_cases room :
        (requestAad platform.toCborEncoder c.nextRequest).length ≤
          c.rrc.aad.length
    · obtain ⟨value, after, done⟩ :=
        (@requestOption_ok_iff platform options c fit ivShort small).mpr room
      rw [done]
      intro impossible
      cases impossible
    · obtain ⟨present, pivShort⟩ := partialIv_length small
      obtain ⟨nonce, created, _⟩ :=
        createNonce_total pivShort fit.kid ivShort
      have numbered :
          senderSeqNum2piv c.sc.senderSeqNum =
            .ok (partialIv c.sc.senderSeqNum) :=
        senderSeqNum2piv_eq_ok.mpr ⟨small, rfl⟩
      have updated := exec_nonceAndAadUpdate platform options c.nextRequest
      have sameNonce :
          createNonce c.nextRequest.rrc.kid c.nextRequest.rrc.piv
            c.nextRequest.cc.commonIv = .ok nonce := created
      have noRoom :
          ¬ (requestAad platform.toCborEncoder c.nextRequest).length ≤
            c.nextRequest.rrc.aad.length := room
      rw [sameNonce] at updated
      dsimp only at updated
      rw [if_neg noRoom] at updated
      unfold requestOption contextUpdate
      rw [exec_get_bind, exec_modify_bind, exec_lift_bind, numbered,
        andThen_ok, exec_modify_bind]
      change (exec (nonceAndAadUpdate platform options >>= _)
        c.nextRequest).1 ≠ _
      rw [exec_bind, updated]
      intro impossible
      cases impossible
  · have refused : ∃ code,
        senderSeqNum2piv c.sc.senderSeqNum = fail code := by
      cases outcome : senderSeqNum2piv c.sc.senderSeqNum with
      | ok piv =>
          exact absurd (senderSeqNum2piv_eq_ok.mp outcome).1 small
      | error fault =>
          cases fault with
          | err code =>
              exact ⟨code, rfl⟩
          | undefinedBehaviour =>
              exact absurd outcome (senderSeqNum2piv_defined _)
    obtain ⟨code, refused⟩ := refused
    unfold requestOption
    rw [exec_get_bind, exec_modify_bind, exec_lift_bind, refused]
    intro impossible
    cases impossible

theorem optionValue_defined (fit : IdsFit c)
    (ivShort : c.cc.commonIv.length ≤ nonceLen) :
    (exec (optionValue platform packet options) c).1 ≠ undefinedBehaviour := by
  unfold optionValue
  cases isRequest packet with
  | false =>
      intro impossible
      cases impossible
  | true =>
      exact requestOption_defined fit ivShort

/-- The checks in front of the OSCORE option of a request. -/
theorem optionValue_isOk_iff (fit : IdsFit c)
    (ivShort : c.cc.commonIv.length ≤ nonceLen) :
    (∃ value after,
      exec (optionValue platform packet options) c = (.ok value, after)) ↔
      (isRequest packet = true → c.sc.senderSeqNum.toNat < 2 ^ 40) ∧
        (isRequest packet = true →
          (requestAad platform.toCborEncoder c.nextRequest).length ≤
            c.rrc.aad.length) := by
  simp only [optionValue_eq_ok]
  cases isRequest packet with
  | false =>
      apply iff_of_true
      · exact ⟨[], c, rfl, rfl⟩
      · constructor
        · intro impossible
          cases impossible
        · intro impossible
          cases impossible
  | true =>
      simp only [if_true, true_implies]
      constructor
      · intro done
        obtain ⟨value, after, done⟩ := done
        obtain ⟨small, _⟩ := requestOption_eq_ok.mp done
        exact
          ⟨small, (requestOption_ok_iff fit ivShort small).mp
            ⟨value, after, done⟩⟩
      · intro condition
        exact
          (requestOption_ok_iff fit ivShort condition.1).mpr condition.2

theorem optionValue_aad
    (valued :
      exec (optionValue platform packet options) c = (.ok value, after)) :
    after.rrc.aad = usedAad platform packet c := by
  rw [optionValue_eq_ok] at valued
  unfold usedAad
  cases request : isRequest packet with
  | false =>
      rw [request] at valued
      rw [valued.2]
      rfl
  | true =>
      rw [request] at valued
      obtain ⟨_, _, _, _, rfl, _⟩ := requestOption_eq_ok.mp valued
      rfl

/-- The length of the OSCORE option value that a context has for a packet. -/
def optionValueLen (packet : OCoapPacket) (c : Context) : UInt8 :=
  if isRequest packet then requestOptionLen c.nextRequest else 0

/-- The value of the OSCORE option has the length computed for it. -/
theorem optionValue_length (fit : IdsFit c)
    (valued :
      exec (optionValue platform packet options) c = (.ok value, after)) :
    value.length = (optionValueLen packet c).toNat := by
  rw [optionValue_eq_ok] at valued
  unfold optionValueLen
  cases request : isRequest packet with
  | false =>
      rw [request] at valued
      rw [valued.1]
      rfl
  | true =>
      rw [request] at valued
      obtain ⟨small, _, _, _, rfl, _, generated⟩ :=
        requestOption_eq_ok.mp valued
      obtain ⟨present, pivShort⟩ := partialIv_length small
      have kidShort : c.rrc.kid.length ≤ 7 := fit.kid
      have contextShort : c.rrc.kidContext.length ≤ 8 := fit.kidContext
      have pivBound : (partialIv c.sc.senderSeqNum).length ≤ 5 := pivShort
      obtain ⟨other, otherGenerated, length⟩ :=
        @oscoreOptionGenerate_total (partialIv c.sc.senderSeqNum) c.rrc.kid
          c.rrc.kidContext present (by omega)
      have same := Except.ok.inj (generated.symm.trans otherGenerated)
      rw [same]
      exact length

end OptionValue

/-! ## The ciphertext -/

section Ciphertext

variable {platform : Platform} {residue : Bytes} {packet : OCoapPacket}
  {options : List OCoapOption} {c : Context}

theorem coseAad_defined (cbor : CborEncoder) (externalAad : Bytes) :
    coseAad cbor externalAad ≠ undefinedBehaviour := by
  apply outcome_bind_defined checkBufferSize_defined
  intro _ _
  dsimp only
  split
  · intro impossible
    cases impossible
  · intro impossible
    cases impossible

theorem tryExpect_defined {α : Type} (result : Option α) :
    tryExpect result ≠ undefinedBehaviour := by
  cases result with
  | none =>
      intro impossible
      cases impossible
  | some value =>
      intro impossible
      cases impossible

theorem plaintextEncrypt_defined (plaintext : Bytes) :
    plaintextEncrypt platform c plaintext ≠ undefinedBehaviour :=
  outcome_bind_defined (coseAad_defined _ _) fun _ _ => tryExpect_defined _

theorem eOptions_length_le (optionNr eDeltaSum uDeltaSum : UInt8)
    (options : List OCoapOption) :
    (euOptionsExtract optionNr eDeltaSum uDeltaSum options).eOptions.length ≤
      options.length := by
  induction options generalizing optionNr eDeltaSum uDeltaSum with
  | nil =>
      exact Nat.le_refl 0
  | cons option options inductionHypothesis =>
      unfold euOptionsExtract
      dsimp only
      split
      · exact Nat.succ_le_succ (inductionHypothesis _ _ _)
      · exact Nat.le_succ_of_le (inductionHypothesis _ _ _)

theorem eOptions_few (few : options.length ≤ maxOptionCount) :
    maximalOptionsLen (euOptionsExtract 0 0 0 options).eOptions < 2 ^ 16 := by
  have bound :=
    maximalOptionsLen_le (euOptionsExtract 0 0 0 options).eOptions
  have divided := eOptions_length_le 0 0 0 options
  unfold maxOptionBytes at bound
  unfold maxOptionCount at few
  omega

/-- The steps up to the ciphertext are defined where the plaintext is. -/
theorem encryptedParts_eq_undefined (few : options.length ≤ maxOptionCount)
    (available : packet.payloadLen ≤ packet.payload.length) (fit : IdsFit c)
    (ivShort : c.cc.commonIv.length ≤ nonceLen) :
    encryptedParts platform residue packet options c = undefinedBehaviour ↔
      ¬ PlaintextDefined packet options := by
  unfold encryptedParts PlaintextDefined
  dsimp only
  by_cases counted :
      plaintextLen (euOptionsExtract 0 0 0 options).eOptionsLen
        packet.payloadLen ≤ maxPlaintextLen
  · rw [checkBufferSize_of_le counted, outcome_ok_bind,
      outcome_bind_eq_undefined,
      plaintextWritten_eq_undefined (eOptions_few few) available]
    constructor
    · intro stops
      rcases stops with ⟨reserved, outside⟩ | ⟨_, _, stops⟩
      · exact fun inside => outside (inside ⟨counted, reserved⟩)
      · exfalso
        refine outcome_bind_defined (optionValue_defined fit ivShort) ?_ stops
        intro _ _
        refine outcome_bind_defined checkBufferSize_defined fun _ _ => ?_
        refine
          outcome_bind_defined (plaintextEncrypt_defined _) fun _ _ => ?_
        intro impossible
        cases impossible
    · intro outside
      rw [Classical.not_imp] at outside
      exact Or.inl ⟨outside.1.eOptions, outside.2⟩
  · have refused :
        checkBufferSize maxPlaintextLen
            (plaintextLen (euOptionsExtract 0 0 0 options).eOptionsLen
              packet.payloadLen) = fail .bufferToSmall :=
      if_pos (Nat.lt_of_not_le counted)
    rw [refused]
    apply iff_of_false
    · intro impossible
      cases impossible
    · exact not_not.mpr fun reaches => absurd reaches.plaintext counted

/-- A ciphertext is made for the packets that pass all checks. -/
theorem encryptedParts_isOk_iff (few : options.length ≤ maxOptionCount)
    (available : packet.payloadLen ≤ packet.payload.length)
    (room : maxPlaintextLen ≤ residue.length) (total : AeadTotal platform)
    (fit : IdsFit c) (ivShort : c.cc.commonIv.length ≤ nonceLen)
    (plaintextDefined : PlaintextDefined packet options) :
    (∃ parts, encryptedParts platform residue packet options c = .ok parts) ↔
      Sealed platform packet options c := by
  unfold encryptedParts
  dsimp only
  constructor
  · intro done
    obtain ⟨parts, done⟩ := done
    obtain ⟨_, counted, done⟩ := outcome_bind_eq_ok.mp done
    obtain ⟨written, setup, done⟩ := outcome_bind_eq_ok.mp done
    obtain ⟨value, valued, done⟩ := outcome_bind_eq_ok.mp done
    obtain ⟨_, _, done⟩ := outcome_bind_eq_ok.mp done
    obtain ⟨ciphertext, encrypted, _⟩ := outcome_bind_eq_ok.mp done
    have counted := checkBufferSize_eq_ok.mp counted
    have reserved :
        maximalOptionsLen (euOptionsExtract 0 0 0 options).eOptions ≤
          maxEOptions := by
      obtain ⟨_, reserved, _⟩ := outcome_bind_eq_ok.mp setup
      rw [Nat.mod_eq_of_lt (eOptions_few few)] at reserved
      exact checkBufferSize_eq_ok.mp reserved
    have reaches : ReachesEOptions packet options := ⟨counted, reserved⟩
    obtain ⟨values, inside⟩ := plaintextDefined reaches
    have valued :
        exec (optionValue platform packet options) c =
          (.ok value, (exec (optionValue platform packet options) c).2) :=
      Prod.ext valued rfl
    obtain ⟨numbered, aadRoom⟩ :=
      (optionValue_isOk_iff fit ivShort).mp ⟨value, _, valued⟩
    obtain ⟨aad, built, _⟩ := oscoreCoseEncrypt_eq_ok.mp encrypted
    rw [optionValue_aad valued, coseAad_eq_ok] at built
    exact
      ⟨reaches,
        (plaintextWritten_isOk_iff values reserved available inside).mp
          ⟨written, setup⟩,
        numbered, aadRoom, built.1, built.2.1⟩
  · intro isSealed
    obtain ⟨values, inside⟩ := plaintextDefined isSealed.reaches
    obtain ⟨written, setup⟩ :=
      (plaintextWritten_isOk_iff values isSealed.reaches.eOptions available
        inside).mpr isSealed.passes
    obtain ⟨value, after, valued⟩ :=
      (@optionValue_isOk_iff platform packet options c fit ivShort).mpr
        ⟨isSealed.numbered, isSealed.aad⟩
    have length :=
      @overwritten_length _ residue written
        (isSealed.reaches.plaintext.trans room)
    have fits :
        (overwritten residue written
          (plaintextLen (euOptionsExtract 0 0 0 options).eOptionsLen
            packet.payloadLen)).length + authTagLen ≤ maxCiphertextLen := by
      rw [length]
      exact Nat.add_le_add_right isSealed.reaches.plaintext authTagLen
    have built :
        coseAad platform.toCborEncoder after.rrc.aad =
          .ok
            (encStructure platform.toCborEncoder
              (usedAad platform packet c)) := by
      rw [optionValue_aad valued, coseAad_eq_ok]
      exact ⟨isSealed.aadShort, isSealed.encoded, rfl⟩
    obtain ⟨ciphertext, called⟩ :=
      total
        (overwritten residue written
          (plaintextLen (euOptionsExtract 0 0 0 options).eOptionsLen
            packet.payloadLen))
        after.sc.senderKey after.rrc.nonce
        (encStructure platform.toCborEncoder (usedAad platform packet c))
        authTagLen
    rw [checkBufferSize_of_le isSealed.reaches.plaintext, outcome_ok_bind,
      setup, outcome_ok_bind, valued, outcome_ok_bind,
      checkBufferSize_of_le fits, outcome_ok_bind]
    refine ⟨(value, ciphertext), ?_⟩
    have encrypted :
        plaintextEncrypt platform after
            (overwritten residue written
              (plaintextLen (euOptionsExtract 0 0 0 options).eOptionsLen
                packet.payloadLen)) = .ok ciphertext :=
      oscoreCoseEncrypt_eq_ok.mpr ⟨_, built, called⟩
    rw [encrypted]
    rfl

/-- The value has the length computed for it, and the ciphertext is longer than
its tag. -/
theorem encryptedParts_lengths {value ciphertext : Bytes} (fit : IdsFit c)
    (done :
      encryptedParts platform residue packet options c =
        .ok (value, ciphertext)) :
    value.length = (optionValueLen packet c).toNat ∧ ciphertext ≠ [] := by
  obtain ⟨_, _, afterCount⟩ := outcome_bind_eq_ok.mp done
  obtain ⟨written, _, afterSetup⟩ := outcome_bind_eq_ok.mp afterCount
  obtain ⟨found, valued, afterValue⟩ := outcome_bind_eq_ok.mp afterSetup
  obtain ⟨_, _, afterCheck⟩ := outcome_bind_eq_ok.mp afterValue
  obtain ⟨sealedBytes, encrypted, isParts⟩ :=
    outcome_bind_eq_ok.mp afterCheck
  obtain ⟨rfl, rfl⟩ := Prod.mk.inj (Except.ok.inj isParts)
  obtain ⟨_, _, called⟩ := oscoreCoseEncrypt_eq_ok.mp encrypted
  refine ⟨optionValue_length fit (Prod.ext valued rfl), ?_⟩
  intro empty
  have length := platform.aeadEncrypt_length called
  rw [empty] at length
  exact absurd length (by simp [authTagLen])

end Ciphertext

/-! ## The OSCORE packet -/

/-- The OSCORE packet is made where its array has an entry for the OSCORE
option. -/
theorem oscorePkgGenerate_cases (packet : OCoapPacket)
    (uOptions : List OCoapOption) (ciphertext : Bytes) (option : OCoapOption) :
    (maxOptionCount ≤ uOptions.length ∧
        oscorePkgGenerate packet uOptions ciphertext option =
          undefinedBehaviour) ∨
      (uOptions.length < maxOptionCount ∧
        ∃ oscorePacket,
          oscorePkgGenerate packet uOptions ciphertext option =
            .ok oscorePacket) := by
  unfold oscorePkgGenerate
  by_cases full : maxOptionCount < uOptions.length + 1
  · rw [if_pos full]
    exact Or.inl ⟨Nat.le_of_lt_succ full, rfl⟩
  · rw [if_neg full]
    exact Or.inr ⟨by omega, _, rfl⟩

/-- The four ways in which the OSCORE packet is made or not. -/
theorem oscorePacketOver_cases {platform : Platform} {residue input : Bytes}
    {packet : OCoapPacket} {options : List OCoapOption} {c : Context}
    (total : AeadTotal platform) (fit : IdsFit c)
    (ivShort : c.cc.commonIv.length ≤ nonceLen)
    (room : maxPlaintextLen ≤ residue.length)
    (parsed : buf2coap input = .ok packet)
    (isOptions : packet.options = some options) :
    (¬ PlaintextDefined packet options ∧
        oscorePacketOver platform residue packet c = undefinedBehaviour) ∨
      (PlaintextDefined packet options ∧ ¬ Sealed platform packet options c ∧
        ∃ code, oscorePacketOver platform residue packet c = fail code) ∨
      (PlaintextDefined packet options ∧ Sealed platform packet options c ∧
        maxOptionCount ≤ (notClassE options).length ∧
        oscorePacketOver platform residue packet c = undefinedBehaviour) ∨
      (PlaintextDefined packet options ∧ Sealed platform packet options c ∧
        (notClassE options).length < maxOptionCount ∧
        ∃ value ciphertext oscorePacket,
          value.length = (optionValueLen packet c).toNat ∧
            ciphertext ≠ [] ∧
            oscorePkgGenerate packet (euOptionsExtract 0 0 0 options).uOptions
              ciphertext (oscoreOption value) = .ok oscorePacket ∧
            oscorePacketOver platform residue packet c =
              .ok oscorePacket) := by
  have payloadLen := (buf2coap_parts parsed isOptions).2
  have few := buf2coap_length_le parsed isOptions
  have stops :=
    @encryptedParts_eq_undefined platform residue packet options c few
      payloadLen.le fit ivShort
  have count :
      (euOptionsExtract 0 0 0 options).uOptions.length =
        (notClassE options).length := by
    have numbered := buf2coap_numbered parsed isOptions
    have same :=
      congrArg List.length (euOptionsExtract_uOptions numbered 0 0)
    rwa [List.length_map, List.length_map] at same
  unfold oscorePacketOver
  rw [isOptions, orUndefined_some, outcome_ok_bind]
  by_cases plaintextDefined : PlaintextDefined packet options
  · have encrypts :=
      @encryptedParts_isOk_iff platform residue packet options c few
        payloadLen.le room total fit ivShort plaintextDefined
    right
    cases outcome : encryptedParts platform residue packet options c with
    | error fault =>
        left
        cases fault with
        | undefinedBehaviour =>
            exact absurd plaintextDefined (stops.mp outcome)
        | err code =>
            refine ⟨plaintextDefined, fun isSealed => ?_, code, rfl⟩
            obtain ⟨parts, done⟩ := encrypts.mpr isSealed
            rw [outcome] at done
            cases done
    | ok parts =>
        right
        obtain ⟨value, ciphertext⟩ := parts
        have isSealed := encrypts.mp ⟨_, outcome⟩
        obtain ⟨valueLength, nonempty⟩ := encryptedParts_lengths fit outcome
        rw [outcome_ok_bind]
        dsimp only
        rcases
          oscorePkgGenerate_cases packet
            (euOptionsExtract 0 0 0 options).uOptions ciphertext
            (oscoreOption value) with
          ⟨full, overflow⟩ | ⟨notFull, oscorePacket, generated⟩
        · rw [count] at full
          exact Or.inl ⟨plaintextDefined, isSealed, full, overflow⟩
        · rw [count] at notFull
          exact
            Or.inr
              ⟨plaintextDefined, isSealed, notFull, value, ciphertext,
                oscorePacket, valueLength, nonempty, generated, generated⟩
  · left
    rw [stops.mpr plaintextDefined]
    exact ⟨plaintextDefined, rfl⟩

end UoscoreUedhoc.Oscore

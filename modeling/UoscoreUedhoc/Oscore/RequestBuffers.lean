import UoscoreUedhoc.Oscore.KidContexts
import UoscoreUedhoc.Oscore.OuterPacket

/-!
# Buffers of a request

What `coap2oscore` needs besides room for the AAD: the lengths of the CBOR
structures, the value of the OSCORE option, the plaintext and the outer packet.
A request whose parts fit is protected when there is room for its AAD and for
the `Enc_structure` around it, and its plaintext has the length that was
counted for it.
-/

namespace UoscoreUedhoc.Oscore

open UoscoreUedhoc
open Update

/-! ## Lengths of the CBOR structures -/

section Lengths

variable {cbor : CborEncoder} (canonical : cbor.IsCanonical)

include canonical

/-- Six heads, the algorithm and the version surround KID and Partial IV. -/
theorem aadArray_length {kid piv : Bytes} (kidShort : kid.length < 24)
    (pivShort : piv.length < 24) :
    (aadArray cbor .oscoreAesCcm16_64_128 kid piv []).length =
      7 + kid.length + piv.length := by
  unfold aadArray CborEncoder.list
  rw [canonical.listStart, canonical.listEnd, canonical.uint32,
    canonical.int32, canonical.bstr]
  simp only [canonicalCbor, AeadAlgorithm.toInt, List.length_append,
    List.length_cons, List.length_nil, List.flatten_cons, List.flatten_nil,
    cborHead_length, kidShort, pivShort, if_true]
  norm_num
  have algorithm : (cborHead 0 (Int.toNat 10)).length = 1 := rfl
  omega

theorem encStructure_length {aad : Bytes} (short : aad.length < 24) :
    (encStructure cbor aad).length = 12 + aad.length := by
  unfold encStructure CborEncoder.list
  rw [canonical.listStart, canonical.listEnd, canonical.tstr, canonical.bstr]
  simp only [canonicalCbor, encrypt0, List.length_append, List.length_cons,
    List.length_nil, List.flatten_cons, List.flatten_nil, cborHead_length,
    short, if_true]
  norm_num
  omega

theorem coseAad_ok_iff {aad : Bytes} :
    (∃ encoded, coseAad cbor aad = .ok encoded) ↔ aad.length ≤ 14 := by
  have room : encrypt0EncodingOverhead = 16 := rfl
  have size : maxAadLen = 30 := rfl
  simp only [coseAad_eq_ok]
  constructor
  · intro built
    obtain ⟨_, bounded, _⟩ := built
    omega
  · intro short
    have length := encStructure_length canonical (show aad.length < 24 by omega)
    exact ⟨_, by omega, by omega, rfl⟩

end Lengths

/-! ## The OSCORE option -/

theorem writeAt_length {buffer bytes : Bytes} {offset : Nat}
    (fits : offset + bytes.length ≤ buffer.length) :
    (writeAt buffer offset bytes).length = buffer.length := by
  unfold writeAt
  simp only [List.length_append, List.length_take, List.length_drop]
  omega

theorem orFirst_length (buffer : Bytes) (bits : UInt8) :
    (orFirst buffer bits).length = buffer.length := by
  unfold orFirst
  cases buffer with
  | nil =>
      rfl
  | cons byte buffer =>
      rfl

/-- The length of the value of an OSCORE option as a number. -/
theorem getOscoreOptValLen_toNat {piv kid kidContext : Bytes}
    (pivPresent : 0 < piv.length)
    (short : piv.length + kidContext.length + kid.length < 250) :
    (getOscoreOptValLen piv kid kidContext).toNat =
      1 + piv.length + kidContext.length + kid.length +
        if kidContext.length = 0 then 0 else 1 := by
  have sum : (UInt8.ofNat (piv.length + kidContext.length + kid.length)).toNat =
      piv.length + kidContext.length + kid.length :=
    UInt8.toNat_ofNat_of_lt' (by
      change _ < 256
      omega)
  have notZero :
      UInt8.ofNat (piv.length + kidContext.length + kid.length) ≠ 0 := by
    intro zero
    rw [zero] at sum
    have none : (0 : UInt8).toNat = 0 := rfl
    omega
  have one : (1 : UInt8).toNat = 1 := rfl
  unfold getOscoreOptValLen
  dsimp only
  rw [if_neg notZero]
  split
  · rw [UInt8.toNat_add, sum, one]
    omega
  · rw [UInt8.toNat_add, UInt8.toNat_add, sum, one]
    omega

private theorem uint32_sub {len : UInt8} {offset : Nat}
    (inside : offset ≤ len.toNat) :
    uint32 (len.toNat - offset : Int) = len.toNat - offset := by
  have bounded := len.toNat_lt
  rw [uint32_of_nonneg (by omega) (by omega)]
  omega

theorem writePiv_total {piv : Bytes} {len : UInt8}
    (pivPresent : 0 < piv.length) (room : 1 + piv.length ≤ len.toNat) :
    ∃ value,
      writePiv piv len (List.replicate len.toNat 0) =
          .ok (value, 1 + piv.length) ∧
        value.length = len.toNat := by
  have copied :
      memcpyS (uint32 (len.toNat - 1)) piv piv.length = .ok piv := by
    apply memcpyS_whole
    have same := @uint32_sub len 1 (by omega)
    rw [Nat.cast_one] at same
    omega
  unfold writePiv
  dsimp only
  rw [if_neg (Nat.pos_iff_ne_zero.mp pivPresent), copied, outcome_ok_bind]
  refine ⟨_, rfl, ?_⟩
  rw [writeAt_length, orFirst_length, List.length_replicate]
  rw [orFirst_length, List.length_replicate]
  exact room

/-- The bytes of the KID context in the option value. -/
def kidContextRoom (kidContext : Bytes) : Nat :=
  if kidContext.length = 0 then 0 else 1 + kidContext.length

theorem writeKidContext_total {kidContext value : Bytes} {len : UInt8}
    {tempPtr : Nat} (valueLength : value.length = len.toNat)
    (room : tempPtr + kidContextRoom kidContext ≤ len.toNat) :
    ∃ after,
      writeKidContext kidContext len value tempPtr =
          .ok (after, tempPtr + kidContextRoom kidContext) ∧
        after.length = len.toNat := by
  unfold kidContextRoom at room ⊢
  unfold writeKidContext
  by_cases empty : kidContext.length = 0
  · rw [if_pos empty, if_pos empty]
    exact ⟨value, rfl, valueLength⟩
  · rw [if_neg empty] at room
    have copied :
        memcpyS (uint32 (len.toNat - ((tempPtr : Int) + 1))) kidContext
          kidContext.length = .ok kidContext := by
      apply memcpyS_whole
      have same := @uint32_sub len (tempPtr + 1) (by omega)
      push_cast at same
      omega
    dsimp only
    rw [if_neg empty, if_neg empty, copied, outcome_ok_bind]
    have flagLength :
        (writeAt (orFirst value compOscoreOptKidcHMask) tempPtr
          [UInt8.ofNat kidContext.length]).length = len.toNat := by
      rw [writeAt_length, orFirst_length, valueLength]
      rw [orFirst_length, valueLength, List.length_singleton]
      omega
    rw [Nat.add_assoc tempPtr 1]
    refine ⟨_, rfl, ?_⟩
    rw [writeAt_length, flagLength]
    omega

theorem writeKid_total {kid value : Bytes} {len : UInt8} {tempPtr : Nat}
    (valueLength : value.length = len.toNat)
    (room : tempPtr + kid.length ≤ len.toNat) :
    ∃ after, writeKid kid len value tempPtr = .ok after ∧
      after.length = len.toNat := by
  unfold writeKid
  dsimp only
  by_cases empty : kid.length = 0
  · rw [if_pos empty]
    exact ⟨_, rfl, (orFirst_length _ _).trans valueLength⟩
  · have copied :
        memcpyS (uint32 (len.toNat - (tempPtr : Int))) kid kid.length =
          .ok kid := by
      apply memcpyS_whole
      have same := @uint32_sub len tempPtr (by omega)
      omega
    rw [if_neg empty, copied, outcome_ok_bind]
    refine ⟨_, rfl, ?_⟩
    rw [writeAt_length, orFirst_length, valueLength]
    rw [orFirst_length, valueLength]
    exact room

/-- An option value of the right length takes the Partial IV, the KID context
and the KID. -/
theorem oscoreOptionGenerate_total {piv kid kidContext : Bytes}
    (pivPresent : 0 < piv.length)
    (short : piv.length + kidContext.length + kid.length < 250) :
    ∃ value,
      oscoreOptionGenerate piv kid kidContext
          (getOscoreOptValLen piv kid kidContext) = .ok value ∧
        value.length = (getOscoreOptValLen piv kid kidContext).toNat := by
  have length := getOscoreOptValLen_toNat pivPresent short
  generalize getOscoreOptValLen piv kid kidContext = len at length ⊢
  have contextRoom :
      len.toNat =
        1 + piv.length + kidContextRoom kidContext + kid.length := by
    unfold kidContextRoom
    split at length
    · rename_i empty
      rw [if_pos empty]
      omega
    · rename_i some
      rw [if_neg some]
      omega
  have notZero : len ≠ 0 := by
    intro zero
    rw [zero] at length
    have none : (0 : UInt8).toNat = 0 := rfl
    omega
  obtain ⟨first, pivWritten, firstLength⟩ :=
    @writePiv_total piv len pivPresent (by omega)
  obtain ⟨second, contextWritten, secondLength⟩ :=
    @writeKidContext_total kidContext first len (1 + piv.length) firstLength
      (by omega)
  obtain ⟨value, kidWritten, valueLength⟩ :=
    @writeKid_total kid second len
      (1 + piv.length + kidContextRoom kidContext) secondLength (by omega)
  refine ⟨value, ?_, valueLength⟩
  unfold oscoreOptionGenerate
  dsimp only
  rw [if_neg notZero, pivWritten, outcome_ok_bind]
  dsimp only
  rw [contextWritten, outcome_ok_bind]
  exact kidWritten

/-! ## The plaintext -/

/-- The bytes of a payload with its marker. -/
def payloadRoom (payloadLen : Nat) : Nat :=
  if payloadLen = 0 then 0 else 1 + payloadLen

theorem plaintextLen_eq {eOptionsLen : UInt16} {payloadLen : Nat}
    (counted : 1 + eOptionsLen.toNat + payloadRoom payloadLen < 2 ^ 32) :
    plaintextLen eOptionsLen payloadLen =
      1 + eOptionsLen.toNat + payloadRoom payloadLen := by
  have cast :
      1 + (eOptionsLen.toNat : Int) +
          ((if payloadLen = 0 then 0 else 1 + payloadLen : Nat) : Int) =
        ((1 + eOptionsLen.toNat + payloadRoom payloadLen : Nat) : Int) := by
    unfold payloadRoom
    omega
  unfold plaintextLen
  rw [cast, uint32_of_nonneg (by omega) (by omega)]
  exact Int.toNat_natCast _

/-- The E-options take the bytes counted for them, or as many more as the
payload with its marker: then the length left for the payload wraps around. -/
def CountedRight (eOptionsLen : UInt16) (eOptions : List OCoapOption)
    (payloadLen : Nat) : Prop :=
  (optionsWritten eOptions).length = eOptionsLen.toNat ∨
    (payloadLen ≠ 0 ∧
      (optionsWritten eOptions).length =
        eOptionsLen.toNat + payloadRoom payloadLen)

theorem plaintextSetup_ok_iff {packet : OCoapPacket}
    {eOptions : List OCoapOption} {eOptionsLen : UInt16}
    (values : HasValues eOptions)
    (room : maximalOptionsLen eOptions ≤ maxEOptions)
    (available : packet.payloadLen ≤ packet.payload.length)
    (fits :
      1 + eOptionsLen.toNat + payloadRoom packet.payloadLen ≤
        maxPlaintextLen)
    (writtenFits :
      1 + (optionsWritten eOptions).length +
        payloadRoom packet.payloadLen ≤ maxPlaintextLen) :
    (∃ plaintext,
      plaintextSetup packet eOptions
        (plaintextLen eOptionsLen packet.payloadLen) = .ok plaintext) ↔
      CountedRight eOptionsLen eOptions packet.payloadLen := by
  have small : maxPlaintextLen = 128 := rfl
  have optionRoom : maxEOptions = 30 := rfl
  have reserved : maximalOptionsLen eOptions % 2 ^ 16 =
      maximalOptionsLen eOptions :=
    Nat.mod_eq_of_lt (by omega)
  have writtenOptions :
      optionsIntoByteString (maximalOptionsLen eOptions) eOptions =
        .ok (optionsWritten eOptions) :=
    optionsIntoByteString_eq_ok.mpr
      ⟨values, optionsWritten_length_le values, rfl⟩
  rw [plaintextLen_eq (by omega)]
  unfold plaintextSetup CountedRight
  dsimp only
  rw [reserved, checkBufferSize_of_le room, outcome_ok_bind, writtenOptions,
    outcome_ok_bind]
  generalize optionsWritten eOptions = bytes at writtenFits ⊢
  have before :
      uint32 (((1 + eOptionsLen.toNat + payloadRoom packet.payloadLen : Nat) :
          Int) - 1) =
        eOptionsLen.toNat + payloadRoom packet.payloadLen := by
    rw [uint32_of_nonneg (by omega) (by omega)]
    omega
  rw [before]
  simp only [outcome_bind_eq_ok, memcpyS_eq_ok, List.take_length]
  unfold payloadRoom at fits writtenFits before ⊢
  by_cases noPayload : packet.payloadLen = 0
  · simp only [noPayload, if_true, Nat.add_zero, writtenPrefix_eq_ok,
      List.length_cons, ne_eq, not_true_eq_false, false_and, or_false]
    constructor
    · intro done
      obtain ⟨_, _, ⟨short, _, rfl⟩, long, _⟩ := done
      omega
    · intro counted
      exact ⟨_, bytes, ⟨by omega, Nat.le_refl _, rfl⟩, by omega, rfl⟩
  · simp only [noPayload, if_false] at fits writtenFits ⊢
    have behind : ∀ value : Int,
        value = (eOptionsLen.toNat : Int) + packet.payloadLen - bytes.length →
        (packet.payloadLen ≤ uint32 value ↔
          bytes.length ≤ eOptionsLen.toNat ∨
            (eOptionsLen.toNat + packet.payloadLen < bytes.length)) := by
      intro value same
      unfold uint32
      omega
    constructor
    · intro done
      obtain ⟨plaintext, copied, ⟨short, _, rfl⟩, done⟩ := done
      simp only [outcome_bind_eq_ok, memcpyS_eq_ok] at done
      obtain ⟨payload, ⟨payloadFits, _, rfl⟩, done⟩ := done
      rw [behind _ (by simp only [List.length_cons]; push_cast; ring)]
        at payloadFits
      split at done
      · cases done
      · obtain ⟨long, _⟩ := writtenPrefix_eq_ok.mp done
        simp only [List.length_append, List.length_cons,
          List.length_take_of_le available] at long
        refine payloadFits.imp ?_ ?_
        · intro notMore
          omega
        · intro more
          exact ⟨noPayload, by omega⟩
    · intro counted
      have payloadFits :
          packet.payloadLen ≤ uint32 (((1 + eOptionsLen.toNat +
            (1 + packet.payloadLen) : Nat) : Int) -
              (((0 : UInt8) :: bytes).length + 1 : Nat)) := by
        rw [behind _ (by simp only [List.length_cons]; push_cast; ring)]
        refine counted.imp ?_ ?_
        · intro same
          omega
        · intro more
          omega
      have taken := List.length_take_of_le available
      refine
        ⟨((packet.header.code :: bytes) ++
              0xFF :: packet.payload.take packet.payloadLen).take
            (1 + eOptionsLen.toNat + (1 + packet.payloadLen)),
          bytes, ⟨by omega, Nat.le_refl _, rfl⟩, ?_⟩
      rw [outcome_bind_eq_ok]
      refine
        ⟨packet.payload.take packet.payloadLen,
          memcpyS_eq_ok.mpr ⟨payloadFits, available, rfl⟩, ?_⟩
      rw [if_neg]
      · rw [writtenPrefix_eq_ok]
        refine ⟨?_, rfl⟩
        simp only [List.length_append, List.length_cons, taken]
        omega
      · simp only [List.length_cons, taken]
        omega

/-! ## Requests that fit -/

/-- The options and the plaintext of a request fit into the buffers of
`coap2oscore`, whatever the OSCORE option. -/
structure FitsBuffers (packet : OCoapPacket) (options : List OCoapOption)
    (capacity : Nat) : Prop where
  values : HasValues options
  eOptions :
    maximalOptionsLen (euOptionsExtract 0 0 0 options).eOptions ≤ maxEOptions
  counted :
    1 + (euOptionsExtract 0 0 0 options).eOptionsLen.toNat +
      payloadRoom packet.payloadLen ≤ maxPlaintextLen
  plaintext :
    1 + (optionsWritten (euOptionsExtract 0 0 0 options).eOptions).length +
      payloadRoom packet.payloadLen ≤ maxPlaintextLen
  uOptions_count :
    (euOptionsExtract 0 0 0 options).uOptions.length < maxOptionCount
  uOptions :
    maximalOptionsLen (euOptionsExtract 0 0 0 options).uOptions +
      (5 + oscoreOptValueLen) ≤ maxCoapOptionsLen
  output :
    headerLen + packet.header.tkl.toNat + maxCoapOptionsLen + 1 +
      maxCiphertextLen ≤ capacity

theorem euOptionsExtract_hasValues {options : List OCoapOption}
    (values : HasValues options) (optionNr eDeltaSum uDeltaSum : UInt8) :
    HasValues
        (euOptionsExtract optionNr eDeltaSum uDeltaSum options).eOptions ∧
      HasValues
        (euOptionsExtract optionNr eDeltaSum uDeltaSum options).uOptions := by
  induction options generalizing optionNr eDeltaSum uDeltaSum with
  | nil =>
      exact ⟨values, values⟩
  | cons option options inductionHypothesis =>
      obtain ⟨hasValue, others⟩ := List.forall_mem_cons.mp values
      unfold euOptionsExtract
      dsimp only
      split
      · obtain ⟨inner, outer⟩ := inductionHypothesis others _ _ _
        exact ⟨List.forall_mem_cons.mpr ⟨hasValue, inner⟩, outer⟩
      · obtain ⟨inner, outer⟩ := inductionHypothesis others _ _ _
        exact ⟨inner, List.forall_mem_cons.mpr ⟨hasValue, outer⟩⟩

/-- A parsed packet with options has its token and its payload. -/
theorem buf2coap_parts {input : Bytes} {packet : OCoapPacket}
    {options : List OCoapOption} (parsed : buf2coap input = .ok packet)
    (isOptions : packet.options = some options) :
    HasToken packet ∧ packet.payloadLen = packet.payload.length := by
  unfold buf2coap at parsed
  split at parsed
  · dsimp only at parsed
    split at parsed
    · cases parsed
      cases isOptions
    · split at parsed
      · cases parsed
      · split at parsed
        · cases parsed
        · rename_i available
          split at parsed
          · cases parsed
            cases isOptions
          · obtain ⟨walked, _, same⟩ := outcome_bind_eq_ok.mp parsed
            cases same
            refine ⟨?_, rfl⟩
            intro present
            dsimp only at present ⊢
            rw [if_neg]
            · exact ⟨_, rfl, not_lt.mp available⟩
            · intro zero
              rw [zero] at present
              exact absurd present (by decide)
  · cases parsed

theorem maximalOptionsLen_pkgOptions (numberSum : UInt8)
    (options : List OCoapOption) :
    maximalOptionsLen (pkgOptions numberSum options) =
      maximalOptionsLen options := by
  induction options generalizing numberSum with
  | nil =>
      rfl
  | cons option options inductionHypothesis =>
      have rest :=
        inductionHypothesis
          (numberSum +
            (option.optionNumber.toUInt16 - numberSum.toUInt16).toUInt8)
      unfold maximalOptionsLen at rest ⊢
      rw [pkgOptions, List.map_cons, List.sum_cons, rest, List.map_cons,
        List.sum_cons]

theorem pkgOptions_hasValues {options : List OCoapOption}
    (values : HasValues options) (numberSum : UInt8) :
    HasValues (pkgOptions numberSum options) := by
  induction options generalizing numberSum with
  | nil =>
      exact values
  | cons option options inductionHypothesis =>
      obtain ⟨hasValue, others⟩ := List.forall_mem_cons.mp values
      exact
        List.forall_mem_cons.mpr ⟨hasValue, inductionHypothesis others _⟩

theorem maximalOptionsLen_le (options : List OCoapOption) :
    maximalOptionsLen options ≤ options.length * maxOptionBytes := by
  induction options with
  | nil =>
      exact Nat.zero_le _
  | cons option options inductionHypothesis =>
      have len := option.len.toNat_lt
      unfold maximalOptionsLen maxOptionBytes at inductionHypothesis ⊢
      rw [List.map_cons, List.sum_cons, List.length_cons]
      omega

theorem maximalOptionsLen_append (left right : List OCoapOption) :
    maximalOptionsLen (left ++ right) =
      maximalOptionsLen left + maximalOptionsLen right := by
  unfold maximalOptionsLen
  rw [List.map_append, List.sum_append]

section Request

variable {platform : Platform} {packet : OCoapPacket}
  {options : List OCoapOption} {capacity : Nat}

/-- An outer packet with any OSCORE option and ciphertext within their bounds
can be made and written. -/
theorem FitsBuffers.written (fits : FitsBuffers packet options capacity)
    (hasToken : HasToken packet) {value ciphertext : Bytes}
    (valueShort : value.length ≤ oscoreOptValueLen)
    (ciphertextShort : ciphertext.length ≤ maxCiphertextLen) :
    ∃ oscorePacket output,
      oscorePkgGenerate packet (euOptionsExtract 0 0 0 options).uOptions
          ciphertext (oscoreOption value) = .ok oscorePacket ∧
        coap2buf oscorePacket capacity = .ok output := by
  have innerValues := (euOptionsExtract_hasValues fits.values 0 0 0).2
  have count := fits.uOptions_count
  have room := fits.uOptions
  have outputRoom := fits.output
  have len : (UInt8.ofNat value.length).toNat = value.length := by
    have short : oscoreOptValueLen = 22 := rfl
    exact UInt8.toNat_ofNat_of_lt' (by
      change _ < 256
      omega)
  unfold oscorePkgGenerate
  rw [if_neg (by omega)]
  dsimp only
  generalize (euOptionsExtract 0 0 0 options).uOptions = uOptions
    at innerValues room
  -- the OSCORE option stands somewhere between the others
  have whole :=
    List.takeWhile_append_dropWhile
      (p := fun uOption => decide (uOption.optionNumber ≤ coapOptionOscore))
      (l := uOptions)
  generalize
    uOptions.takeWhile
      (fun uOption => decide (uOption.optionNumber ≤ coapOptionOscore)) =
      front at whole ⊢
  generalize
    uOptions.dropWhile
      (fun uOption => decide (uOption.optionNumber ≤ coapOptionOscore)) =
      back at whole ⊢
  subst whole
  have outerLen :
      maximalOptionsLen
          (pkgOptions 0 (front ++ oscoreOption value :: back)) ≤
        maxCoapOptionsLen := by
    rw [maximalOptionsLen_append] at room
    rw [maximalOptionsLen_pkgOptions, maximalOptionsLen_append,
      show oscoreOption value :: back = [oscoreOption value] ++ back from rfl,
      maximalOptionsLen_append]
    have single : maximalOptionsLen [oscoreOption value] = 5 + value.length :=
      congrArg (5 + ·) len
    omega
  have outerValues :
      HasValues (pkgOptions 0 (front ++ oscoreOption value :: back)) := by
    apply pkgOptions_hasValues
    intro option member
    rcases List.mem_append.mp member with inFront | inBack
    · exact innerValues option (List.mem_append_left _ inFront)
    · rcases List.mem_cons.mp inBack with same | behind
      · rw [same]
        exact len.le
      · exact innerValues option (List.mem_append_right _ behind)
  refine
    ⟨_, _, rfl,
      coap2buf_eq_ok.mpr
        ⟨_, rfl, outerLen, outerValues, ?_, Nat.le_refl _, ?_, rfl⟩⟩
  · intro present
    dsimp only at present ⊢
    rw [if_neg]
    · exact hasToken present
    · intro zero
      rw [zero] at present
      exact absurd present (by decide)
  · have headerLength : ∀ header, (headerBytes header).length = headerLen :=
      fun _ => rfl
    have tokenLength := tokenWritten_length hasToken
    have writtenLength := optionsWritten_length_le outerValues
    have payloadLength : ∀ payloadPacket : OCoapPacket,
        payloadPacket.payloadLen = ciphertext.length →
        (payloadWritten payloadPacket).length ≤ 1 + ciphertext.length := by
      intro payloadPacket same
      unfold payloadWritten
      split
      · exact Nat.zero_le _
      · rw [List.length_cons, List.length_take]
        omega
    unfold packetWritten
    rw [List.length_append, List.length_append, List.length_append,
      headerLength, tokenWritten_ite, tokenLength]
    refine (Nat.add_le_add_left (payloadLength _ rfl) _).trans ?_
    omega

/-- AEAD encryption does not fail. -/
def AeadTotal (platform : Platform) : Prop :=
  ∀ plaintext key nonce aad tagLen,
    ∃ ciphertext,
      platform.aeadEncrypt plaintext key nonce aad tagLen = some ciphertext

/-- The platform of test vector T1 with an encryption that always succeeds. -/
def t1Sealing : Platform :=
  t1Platform.withTotalAead

theorem t1Sealing_total : AeadTotal t1Sealing :=
  fun _ _ _ _ _ => ⟨_, rfl⟩

/-- With fitting IDs, a request gets its OSCORE option exactly when there is
room for its AAD. -/
theorem requestOption_ok_iff {c : Context} (fit : IdsFit c)
    (ivShort : c.cc.commonIv.length ≤ nonceLen)
    (small : c.sc.senderSeqNum.toNat < 2 ^ 40) :
    (∃ value after,
      exec (requestOption platform options) c = (.ok value, after)) ↔
      (requestAad platform.toCborEncoder c.nextRequest).length ≤
        c.rrc.aad.length := by
  constructor
  · intro done
    obtain ⟨value, after, done⟩ := done
    obtain ⟨_, _, _, room, _⟩ := requestOption_eq_ok.mp done
    exact room
  · intro room
    obtain ⟨present, pivShort⟩ := partialIv_length small
    obtain ⟨nonce, created, _⟩ := createNonce_total pivShort fit.kid ivShort
    have kidShort : c.rrc.kid.length ≤ 7 := fit.kid
    have contextShort : c.rrc.kidContext.length ≤ 8 := fit.kidContext
    have pivBound : (partialIv c.sc.senderSeqNum).length ≤ 5 := pivShort
    obtain ⟨value, generated, _⟩ :=
      @oscoreOptionGenerate_total (partialIv c.sc.senderSeqNum) c.rrc.kid
        c.rrc.kidContext present (by omega)
    have length :=
      @getOscoreOptValLen_toNat (partialIv c.sc.senderSeqNum) c.rrc.kid
        c.rrc.kidContext present (by omega)
    refine
      ⟨value, _, requestOption_eq_ok.mpr
        ⟨small, nonce, created, room, rfl, ?_, generated⟩⟩
    have bound : oscoreOptValueLen = 22 := rfl
    change (getOscoreOptValLen (partialIv c.sc.senderSeqNum) c.rrc.kid
      c.rrc.kidContext).toNat ≤ _
    rw [length, bound]
    split <;> omega

theorem requestOption_value_length {c after : Context} {value : Bytes}
    (fit : IdsFit c)
    (done : exec (requestOption platform options) c = (.ok value, after)) :
    value.length ≤ oscoreOptValueLen := by
  obtain ⟨small, _, _, _, rfl, short, generated⟩ :=
    requestOption_eq_ok.mp done
  obtain ⟨present, pivShort⟩ := partialIv_length small
  have kidShort : c.rrc.kid.length ≤ 7 := fit.kid
  have contextShort : c.rrc.kidContext.length ≤ 8 := fit.kidContext
  have pivBound : (partialIv c.sc.senderSeqNum).length ≤ 5 := pivShort
  obtain ⟨other, otherGenerated, length⟩ :=
    @oscoreOptionGenerate_total (partialIv c.sc.senderSeqNum) c.rrc.kid
      c.rrc.kidContext present (by omega)
  have same := Except.ok.inj (generated.symm.trans otherGenerated)
  rw [same, length]
  exact short

/-- With fitting IDs and buffers, a request is protected exactly when there is
room for its AAD and for the `Enc_structure`, and its plaintext is counted
right. -/
theorem FitsBuffers.protected_iff {c : Context}
    (fits : FitsBuffers packet options capacity)
    (canonical : platform.toCborEncoder.IsCanonical)
    (total : AeadTotal platform) (fit : IdsFit c)
    (ivShort : c.cc.commonIv.length ≤ nonceLen)
    (small : c.sc.senderSeqNum.toNat < 2 ^ 40) {input : Bytes}
    (parsed : buf2coap input = .ok packet)
    (notCopied : isMessagingLayer packet = false)
    (request : isRequest packet = true)
    (isOptions : packet.options = some options) :
    (∃ output,
      (exec (coap2oscore platform input capacity) c).1 = .ok output) ↔
      (requestAad platform.toCborEncoder c.nextRequest).length ≤
          c.rrc.aad.length ∧
        (requestAad platform.toCborEncoder c.nextRequest).length ≤ 14 ∧
        CountedRight (euOptionsExtract 0 0 0 options).eOptionsLen
          (euOptionsExtract 0 0 0 options).eOptions packet.payloadLen := by
  obtain ⟨hasToken, payloadLen⟩ := buf2coap_parts parsed isOptions
  have innerValues := (euOptionsExtract_hasValues fits.values 0 0 0).1
  have setup :=
    plaintextSetup_ok_iff innerValues fits.eOptions payloadLen.le fits.counted
      fits.plaintext
  constructor
  · intro done
    obtain ⟨output, done⟩ := done
    have ran :
        exec (coap2oscore platform input capacity) c =
          (.ok output, (exec (coap2oscore platform input capacity) c).2) :=
      Prod.ext done rfl
    obtain ⟨oscorePacket, ⟨options', plaintext, value, ciphertext, isOptions',
      _, setupDone, valued, encrypted, _⟩, _⟩ :=
      protected_of_parsed ran parsed notCopied
    rw [isOptions] at isOptions'
    cases isOptions'
    rw [optionValue_eq_ok, if_pos request] at valued
    obtain ⟨_, nonce, _, room, after, _, _⟩ := requestOption_eq_ok.mp valued
    obtain ⟨aad, built, _⟩ := oscoreCoseEncrypt_eq_ok.mp encrypted
    refine ⟨room, ?_, setup.mp ⟨plaintext, setupDone⟩⟩
    rw [after] at built
    exact (coseAad_ok_iff canonical).mp ⟨aad, built⟩
  · intro conditions
    obtain ⟨room, encRoom, countedRight⟩ := conditions
    obtain ⟨plaintext, setupDone⟩ := setup.mpr countedRight
    obtain ⟨value, after, valued⟩ :=
      (@requestOption_ok_iff platform options c fit ivShort small).mpr room
    obtain ⟨_, nonce, _, _, isAfter, valueShort, generated⟩ :=
      requestOption_eq_ok.mp valued
    have afterAad :
        after.rrc.aad =
          requestAad platform.toCborEncoder c.nextRequest := by
      rw [isAfter]
      rfl
    obtain ⟨aad, built⟩ :=
      (coseAad_ok_iff canonical).mpr (afterAad ▸ encRoom)
    obtain ⟨ciphertext, called⟩ :=
      total plaintext after.sc.senderKey after.rrc.nonce aad authTagLen
    have encrypted :
        plaintextEncrypt platform after plaintext = .ok ciphertext :=
      oscoreCoseEncrypt_eq_ok.mpr ⟨aad, built, called⟩
    have plaintextShort :
        plaintextLen (euOptionsExtract 0 0 0 options).eOptionsLen
          packet.payloadLen ≤ maxPlaintextLen := by
      rw [plaintextLen_eq (lt_of_le_of_lt fits.counted (by decide))]
      exact fits.counted
    have ciphertextShort : ciphertext.length ≤ maxCiphertextLen := by
      rw [platform.aeadEncrypt_length called,
        plaintextSetup_length setupDone]
      exact Nat.add_le_add_right plaintextShort authTagLen
    have valueLength := requestOption_value_length fit valued
    obtain ⟨oscorePacket, output, generatedPacket, converted⟩ :=
      fits.written hasToken valueLength ciphertextShort
    have isProtected : Protected platform packet c after oscorePacket := by
      refine
        ⟨options, plaintext, value, ciphertext, isOptions, plaintextShort,
          setupDone, ?_, encrypted, generatedPacket⟩
      rw [optionValue_eq_ok, if_pos request]
      exact valued
    have done :
        exec (coap2oscore platform input capacity) c =
          (.ok output, after) := by
      rw [coap2oscore_eq_ok]
      refine ⟨packet, parsed, ?_⟩
      rw [notCopied]
      exact ⟨oscorePacket, isProtected, converted⟩
    exact ⟨output, congrArg Prod.fst done⟩

end Request

end UoscoreUedhoc.Oscore

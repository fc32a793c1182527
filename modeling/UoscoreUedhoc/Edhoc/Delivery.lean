import UoscoreUedhoc.Edhoc.Ciphertext
import UoscoreUedhoc.Edhoc.CopyBounds

/-!
# Messages read by their receiver

What the parsers take from a message that the other party has written.  The
decoders of zcbor are assumed to invert its encoders.
-/

namespace UoscoreUedhoc.Edhoc

open UoscoreUedhoc Update

/-! ## Lengths -/

/-- The length of a `struct byte_array` is a `uint32_t`. -/
def IsByteArray (value : Bytes) : Prop :=
  value.length < 2 ^ 32

instance (value : Bytes) : Decidable (IsByteArray value) :=
  inferInstanceAs (Decidable (_ < _))

/-- A connection identifier that a `struct c_x` can hold. -/
def Cx.IsStored : Cx → Prop
  | .int _ => True
  | .bstr value => IsByteArray value

instance : DecidablePred Cx.IsStored
  | .int _ => inferInstanceAs (Decidable True)
  | .bstr value => inferInstanceAs (Decidable (IsByteArray value))

/-- The byte strings that an initiator sends in `message_1`. -/
structure InitiatorContext.IsStored (c : InitiatorContext) : Prop where
  gX : IsByteArray c.gX
  cI : c.cI.IsStored
  ead1 : IsByteArray c.ead1

section

variable {zcbor : ZcborDecoder} {cbor : CborMapEncoder}
  {count : Nat} {rest : Bytes}

/-! ## Connection identifiers -/

/-- What is decoded of an identifier with further bytes behind it. -/
def Cx.read (rest : Bytes) : Cx → CxItem
  | .int value => .int value
  | .bstr value => .bstr ⟨value.length, value ++ rest⟩

theorem cxItem_decode (inverts : zcbor.Inverts cbor) (left : count ≠ 0)
    {cx : Cx} (stored : cx.IsStored) :
    CxItem.decode zcbor ⟨cx.encode cbor ++ rest, count⟩ =
      some (cx.read rest, ⟨rest, count - 1⟩) := by
  unfold CxItem.decode
  cases cx with
  | int value =>
      apply Decoding.orElse_of_some
      exact Decoding.asMember_of_some (Decoding.item_int32 inverts left value)
  | bstr value =>
      have noInt : Decoding.item zcbor.int32
          ⟨cbor.bstr value ++ rest, count⟩ = none :=
        Decoding.item_of_none (inverts.int32_bstr value rest stored)
      rw [Cx.encode,
        Decoding.orElse_of_none (Decoding.asMember_of_none noInt)]
      exact Decoding.asMember_of_some
        (Decoding.string_bstr inverts left stored)

/-! ## `message_1` -/

/-- `SUITES_I` with any integers as suites. -/
def encodeSuites (cbor : CborMapEncoder) (suites : List Int32) : Bytes :=
  match suites with
  | [suite] => cbor.int32 suite.toInt
  | suites => cbor.list (suites.map fun suite => cbor.int32 suite.toInt)

/-- What is decoded of it. -/
def readSuites (suites : List Int32) : SuitesIItem :=
  match suites with
  | [suite] => .int suite
  | suites => .suite suites

/-- What is decoded of `SUITES_I`. -/
def readSuitesI (suitesI : Bytes) : SuitesIItem :=
  match suitesI with
  | [suite] => .int (int32OfByte suite)
  | suites => .suite (suites.map int32OfByte)

theorem encodeSuitesI_eq (suitesI : Bytes) :
    encodeSuitesI cbor suitesI =
      encodeSuites cbor (suitesI.map int32OfByte) := by
  match suitesI with
  | [] =>
      rfl
  | [suite] =>
      rfl
  | first :: second :: others =>
      rw [encodeSuitesI, encodeSuites, List.map_map]
      · rfl
      · simp
      · simp

theorem readSuitesI_eq (suitesI : Bytes) :
    readSuitesI suitesI = readSuites (suitesI.map int32OfByte) := by
  match suitesI with
  | [] =>
      rfl
  | [suite] =>
      rfl
  | first :: second :: others =>
      rfl

theorem suites_decode (inverts : zcbor.Inverts cbor) (left : count ≠ 0)
    {suites : List Int32} (notEmpty : suites.length ≠ 0)
    (few : suites.length ≤ 10) :
    Decoding.orElse
        (Decoding.asMember SuitesIItem.suite
          (Decoding.list zcbor
            (Decoding.multi 2 10 (Decoding.item zcbor.int32))))
        (Decoding.asMember SuitesIItem.int (Decoding.item zcbor.int32))
        ⟨encodeSuites cbor suites ++ rest, count⟩ =
      some (readSuites suites, ⟨rest, count - 1⟩) := by
  match suites with
  | [] =>
      simp at notEmpty
  | [suite] =>
      have noList : Decoding.list zcbor
          (Decoding.multi 2 10 (Decoding.item zcbor.int32))
          ⟨cbor.int32 suite.toInt ++ rest, count⟩ = none := by
        apply Decoding.andThen_eq_none_of_first
        exact Decoding.item_of_none (inverts.listStart_int32 _ rest)
      rw [encodeSuites,
        Decoding.orElse_of_none (Decoding.asMember_of_none noList)]
      exact Decoding.asMember_of_some (Decoding.item_int32 inverts left _)
  | first :: second :: others =>
      apply Decoding.orElse_of_some
      rw [encodeSuites]
      · apply Decoding.asMember_of_some
        apply Decoding.list_of_elements inverts left
        · rw [List.length_map]
          omega
        · unfold Decoding.multi
          rw [List.length_map, Decoding.multiLoop_int32 inverts _ few]
          rfl
      · simp

/-- An optional string at the end of a message. -/
def optionalEncoding (cbor : CborMapEncoder) (value : Bytes) : Bytes :=
  if value.length ≠ 0 then cbor.bstr value else []

/-- A `message_1` with any integers as suites. -/
structure SentMessage1 where
  method : Int32
  suitesI : List Int32
  gX : Bytes
  cI : Cx
  ead1 : Bytes

def SentMessage1.encoding (cbor : CborMapEncoder) (m : SentMessage1) : Bytes :=
  cbor.int32 m.method.toInt ++ encodeSuites cbor m.suitesI ++
    cbor.bstr m.gX ++ m.cI.encode cbor ++ optionalEncoding cbor m.ead1

/-- `message_1` of a context. -/
def message1Encoding (cbor : CborMapEncoder) (c : InitiatorContext) : Bytes :=
  cbor.int32 c.method.toInt ++ encodeSuitesI cbor c.suitesI ++
    cbor.bstr c.gX ++ c.cI.encode cbor ++ optionalEncoding cbor c.ead1

/-- What is decoded of an optional string at the end of a message. -/
def readOptional (value : Bytes) : Option ByteArrayView :=
  if value.length ≠ 0 then some ⟨value.length, value⟩ else none

theorem optional_decode (inverts : zcbor.Inverts cbor) (left : count ≠ 0)
    {value : Bytes} (stored : IsByteArray value) :
    ∃ final,
      Decoding.present (Decoding.string zcbor.bstr)
          ⟨optionalEncoding cbor value, count⟩ =
        some (readOptional value, final) := by
  unfold readOptional optionalEncoding
  by_cases notEmpty : value.length ≠ 0
  · rw [if_pos notEmpty, if_pos notEmpty]
    have read := @Decoding.string_bstr _ _ _ [] inverts left _ stored
    rw [List.append_nil, List.append_nil] at read
    exact ⟨_, Decoding.present_of_some read⟩
  · rw [if_neg notEmpty, if_neg notEmpty]
    exact ⟨_, Decoding.present_of_none Decoding.string_of_nil⟩

/-- The byte strings of the message have lengths in a `uint32_t`. -/
structure SentMessage1.IsStored (m : SentMessage1) : Prop where
  gX : IsByteArray m.gX
  cI : m.cI.IsStored
  ead1 : IsByteArray m.ead1

theorem sentMessage1_decode (inverts : zcbor.Inverts cbor)
    {m : SentMessage1} (stored : m.IsStored)
    (notEmpty : m.suitesI.length ≠ 0) (few : m.suitesI.length ≤ 10) :
    ∃ gXRest cIRest,
      Decoding.decode (Message1.decode zcbor) 5 (m.encoding cbor) =
        some
          { method := m.method
            suitesI := readSuites m.suitesI
            gX := ⟨m.gX.length, m.gX ++ gXRest⟩
            cI := m.cI.read cIRest
            ead1 := readOptional m.ead1 } := by
  obtain ⟨final, optional⟩ :=
    @optional_decode _ _ 1 inverts (by decide) _ stored.ead1
  refine ⟨m.cI.encode cbor ++ optionalEncoding cbor m.ead1,
    optionalEncoding cbor m.ead1, ?_⟩
  unfold Decoding.decode Message1.decode SentMessage1.encoding
  simp only [List.append_assoc]
  rw [Decoding.andThen_of_some
      (Decoding.item_int32 inverts (by decide) m.method),
    Decoding.andThen_of_some
      (suites_decode inverts (by decide) notEmpty few),
    Decoding.andThen_of_some
      (Decoding.string_bstr inverts (by decide) stored.gX),
    Decoding.andThen_of_some (cxItem_decode inverts (by decide) stored.cI),
    Decoding.asMember_of_some optional]
  rfl

/-- The message of a context, whose suites are bytes. -/
def InitiatorContext.message1 (c : InitiatorContext) : SentMessage1 :=
  ⟨c.method, c.suitesI.map int32OfByte, c.gX, c.cI, c.ead1⟩

theorem message1Encoding_eq (c : InitiatorContext) :
    message1Encoding cbor c = c.message1.encoding cbor := by
  rw [message1Encoding, encodeSuitesI_eq]
  rfl

theorem message1_decode (inverts : zcbor.Inverts cbor)
    {c : InitiatorContext} (stored : c.IsStored)
    (notEmpty : c.suitesI.length ≠ 0) (few : c.suitesI.length ≤ 10) :
    ∃ gXRest cIRest,
      Decoding.decode (Message1.decode zcbor) 5 (message1Encoding cbor c) =
        some
          { method := c.method
            suitesI := readSuitesI c.suitesI
            gX := ⟨c.gX.length, c.gX ++ gXRest⟩
            cI := c.cI.read cIRest
            ead1 := readOptional c.ead1 } := by
  have sameLength : c.message1.suitesI.length = c.suitesI.length :=
    List.length_map _
  rw [message1Encoding_eq, readSuitesI_eq]
  apply sentMessage1_decode inverts
  · exact ⟨stored.gX, stored.cI, stored.ead1⟩
  · rwa [sameLength]
  · rwa [sameLength]

end

section

variable {platform : EdhocPlatform}

theorem msg1Gen_eq_ok {c : InitiatorContext} {msg1 : Bytes} :
    msg1Gen platform c = .ok msg1 ↔
      c.suitesI.length ≠ 0 ∧ c.suitesI.length ≤ 10 ∧
        (message1Encoding platform.cbor c).length ≤ msg1DefaultSize ∧
          msg1 = message1Encoding platform.cbor c := by
  unfold msg1Gen
  by_cases outside : c.suitesI.length = 0 ∨ 10 < c.suitesI.length
  · rw [if_pos outside]
    simp only [undefinedBehaviour, reduceCtorEq, false_iff]
    omega
  · rw [if_neg outside, cborEncode_eq_ok]
    have inside : c.suitesI.length ≠ 0 ∧ c.suitesI.length ≤ 10 := by
      omega
    simp only [inside, ne_eq, not_false_eq_true, true_and]
    rfl

theorem parseSuitesI_eq_ok {suitesI parsed : Bytes} {size : Nat}
    (positive : 0 < size) :
    parseSuitesI size (readSuitesI suitesI) = .ok parsed ↔
      suitesI.length ≤ size ∧ parsed = suitesI := by
  have roundTrip : byteOfInt32 ∘ int32OfByte = id :=
    funext byteOfInt32_int32OfByte
  unfold readSuitesI
  split
  · rename_i suite
    simp only [parseSuitesI, byteOfInt32_int32OfByte, Except.ok.injEq,
      List.length_singleton]
    constructor
    · rintro rfl
      exact ⟨positive, rfl⟩
    · intro run
      exact run.2.symm
  · simp only [parseSuitesI, List.length_map, List.map_map, roundTrip,
      List.map_id]
    by_cases tooLong : size < suitesI.length
    · rw [if_pos tooLong]
      simp only [fail, reduceCtorEq, false_iff]
      omega
    · rw [if_neg tooLong, Except.ok.injEq]
      constructor
      · intro same
        exact ⟨Nat.le_of_not_lt tooLong, same.symm⟩
      · intro run
        exact run.2.symm

/-- `EAD_1` as `msg1_parse` writes it. -/
def receivedEad1 (ead1 : Bytes) : Option Bytes :=
  if ead1.length ≠ 0 then some ead1 else none

theorem msg1Parse_eq_ok (inverts : platform.zcbor.Inverts platform.cbor)
    {c : InitiatorContext} (stored : c.IsStored) {msg1 : Bytes}
    (generated : msg1Gen platform c = .ok msg1) {ead1Len : Nat}
    {parsed : ParsedMsg1} :
    msg1Parse platform msg1 ead1Len = .ok parsed ↔
      c.suitesI.length ≤ 5 ∧ c.gX.length ≤ gXDefaultSize ∧
        c.ead1.length ≤ ead1Len ∧
          parsed =
            ⟨c.method, c.suitesI, c.gX, parseCI (c.cI.read []),
              receivedEad1 c.ead1⟩ := by
  obtain ⟨notEmpty, few, _, rfl⟩ := msg1Gen_eq_ok.mp generated
  obtain ⟨gXRest, cIRest, decoded⟩ :=
    message1_decode inverts stored notEmpty few
  have sameCI : parseCI (c.cI.read cIRest) = parseCI (c.cI.read []) := by
    cases c.cI <;> rfl
  unfold msg1Parse cborDecodeMessage1
  rw [decoded, tryExpect, outcome_ok_bind]
  dsimp only
  unfold readOptional receivedEad1
  by_cases hasEad1 : c.ead1.length ≠ 0
  · simp only [if_pos hasEad1, outcome_bind_eq_ok,
      parseSuitesI_eq_ok (show 0 < 5 by decide), memcpyS_append_eq_ok,
      Except.ok.injEq, sameCI]
    constructor
    · rintro ⟨_, ⟨few, rfl⟩, _, ⟨gXShort, rfl⟩, _, copied, rfl⟩
      obtain ⟨fits, _, rfl⟩ := memcpyS_eq_ok.mp copied
      rw [List.take_length]
      exact ⟨few, gXShort, fits, rfl⟩
    · rintro ⟨few, gXShort, fits, rfl⟩
      exact ⟨_, ⟨few, rfl⟩, _, ⟨gXShort, rfl⟩, _, memcpyS_whole fits, rfl⟩
  · have noEad1 : c.ead1.length = 0 := by
      omega
    simp only [if_neg hasEad1, outcome_bind_eq_ok,
      parseSuitesI_eq_ok (show 0 < 5 by decide), memcpyS_append_eq_ok,
      Except.ok.injEq, sameCI]
    constructor
    · rintro ⟨_, ⟨few, rfl⟩, _, ⟨gXShort, rfl⟩, rfl⟩
      exact ⟨few, gXShort, by omega, rfl⟩
    · rintro ⟨few, gXShort, _, rfl⟩
      exact ⟨_, ⟨few, rfl⟩, _, ⟨gXShort, rfl⟩, rfl⟩

/-! ## `message_2` -/

theorem cborDecodeM2_encodeM2 (inverts : platform.zcbor.Inverts platform.cbor)
    {gYCiphertext2 : Bytes} {cR : Cx} (short : gYCiphertext2.length < 2 ^ 32)
    (stored : cR.IsStored) :
    cborDecodeM2 platform (encodeM2 platform.cbor gYCiphertext2 cR) =
      .ok
        ⟨⟨gYCiphertext2.length, gYCiphertext2 ++ cR.encode platform.cbor⟩,
          cR.read []⟩ := by
  have readCR := @cxItem_decode _ _ 1 [] inverts (by decide) _ stored
  rw [List.append_nil] at readCR
  unfold cborDecodeM2 Decoding.decode M2.decode encodeM2
  rw [Decoding.andThen_of_some
      (Decoding.string_bstr inverts (by decide) short),
    Decoding.asMember_of_some readCR]
  rfl

/-- The room that a connection identifier needs in its buffer. -/
def Cx.FitsInto (size : Nat) : Cx → Prop
  | .int _ => True
  | .bstr value => value.length ≤ size

theorem cxSet_read {cR : Cx} {cRLen : Nat} {behind : Bytes}
    {copies : List Copy} {received : Cx} :
    (exec (cxSet cRLen ((cR.read []).extend behind)) copies).1 =
        .ok received ↔
      cR.FitsInto cRLen ∧ received = cR := by
  cases cR with
  | int value =>
      simp only [Cx.read, CxItem.extend, cxSet_int, Cx.FitsInto, true_and,
        Except.ok.injEq]
      exact eq_comm
  | bstr value =>
      have inBounds :
          (⟨value.length, value ++ []⟩ : ByteArrayView).InBounds := by
        simp [ByteArrayView.InBounds]
      simp only [Cx.read, CxItem.extend, cxSet_bstr inBounds, Cx.FitsInto]
      by_cases overflow : cRLen < value.length
      · rw [if_pos overflow]
        simp only [undefinedBehaviour, reduceCtorEq, false_iff]
        omega
      · have fits : value.length ≤ cRLen := Nat.le_of_not_lt overflow
        rw [if_neg overflow]
        simp only [ByteArrayView.content, List.append_nil, List.take_length,
          Except.ok.injEq, fits, true_and]
        exact eq_comm

/-- The initiator gets out of `message_2` what the responder put into it. -/
theorem msg2Parse_encodeM2 (inverts : platform.zcbor.Inverts platform.cbor)
    {gY ciphertext2 behind : Bytes} {cR : Cx} {cRLen ciphertext2Len : Nat}
    {parsed : ParsedMsg2}
    (buffer :
      (encodeM2 platform.cbor (gY ++ ciphertext2) cR).length +
        behind.length = msg2DefaultSize)
    (gYShort : gY.length ≤ gYDefaultSize)
    (short : ciphertext2.length ≤ ciphertext2Len)
    (room : gY.length + ciphertext2Len < 2 ^ 32) (stored : cR.IsStored) :
    (exec
        (msg2Parse platform (encodeM2 platform.cbor (gY ++ ciphertext2) cR)
          behind gY.length cRLen ciphertext2Len) []).1 = .ok parsed ↔
      cR.FitsInto cRLen ∧ parsed = ⟨gY, ciphertext2, cR⟩ := by
  have stringShort : (gY ++ ciphertext2).length < 2 ^ 32 := by
    rw [List.length_append]
    omega
  have decoded := cborDecodeM2_encodeM2 inverts stringShort stored
  have fits :
      (⟨⟨(gY ++ ciphertext2).length,
          gY ++ ciphertext2 ++ cR.encode platform.cbor⟩,
        cR.read []⟩ : M2).GYFits gY.length ciphertext2Len := by
    simp only [M2.GYFits, List.length_append]
    omega
  rw [exec_msg2Parse_of_gYFits decoded buffer gYShort room fits]
  simp only [ByteArrayView.content, List.take_left, List.drop_left]
  rw [exec_bind_pure]
  constructor
  · intro run
    obtain ⟨received, set, rfl⟩ := outcome_map_eq_ok.mp run
    obtain ⟨crFits, rfl⟩ := cxSet_read.mp set
    exact ⟨crFits, rfl⟩
  · rintro ⟨crFits, rfl⟩
    exact outcome_map_eq_ok.mpr ⟨cR, cxSet_read.mpr ⟨crFits, rfl⟩, rfl⟩

/-! ## Byte strings -/

theorem decodeByteString_eq_ok
    (inverts : platform.zcbor.Inverts platform.cbor) {value out : Bytes}
    (short : value.length < 2 ^ 32) {outLen : Nat} :
    decodeByteString platform (platform.cbor.bstr value) outLen = .ok out ↔
      value.length ≤ outLen ∧ out = value := by
  have read := @Decoding.string_bstr _ _ 1 [] inverts (by decide) _ short
  rw [List.append_nil] at read
  unfold decodeByteString Decoding.decode
  rw [read, Option.map_some, tryExpect, outcome_ok_bind]
  exact memcpyS_append_eq_ok

/-! ## Ciphertexts -/

theorem keyGen_length {ctxt : Ciphertext} {edhocHash : HashAlg}
    {prk th key iv : Bytes} {keyLen ivLen : Nat}
    (generated : keyGen platform ctxt edhocHash prk th keyLen ivLen =
      .ok (key, iv)) : key.length = keyLen := by
  unfold keyGen at generated
  cases ctxt with
  | ciphertext2 =>
      obtain ⟨okm, calculated, same⟩ := outcome_bind_eq_ok.mp generated
      cases same
      exact okmCalc_length calculated
  | ciphertext3 =>
      obtain ⟨okm, calculated, rest⟩ := outcome_bind_eq_ok.mp generated
      obtain ⟨_, _, same⟩ := outcome_bind_eq_ok.mp rest
      cases same
      exact okmCalc_length calculated
  | ciphertext4 =>
      obtain ⟨okm, calculated, rest⟩ := outcome_bind_eq_ok.mp generated
      obtain ⟨_, _, same⟩ := outcome_bind_eq_ok.mp rest
      cases same
      exact okmCalc_length calculated

/-- What `ciphertext_gen` does to the plaintext. -/
theorem ciphertextEncrypt_eq_ok {ctxt : Ciphertext} {suite : Suite}
    {prk th plaintext ciphertext : Bytes} :
    ciphertextEncrypt platform ctxt suite prk th plaintext =
        .ok ciphertext ↔
      keyLength ctxt suite plaintext.length ≤ ciphertext2DefaultSize ∧
        ∃ key iv,
          keyGen platform ctxt suite.edhocHash prk th
              (keyLength ctxt suite plaintext.length)
              (getAeadIvLen suite.edhocAead) = .ok (key, iv) ∧
            match ctxt with
            | .ciphertext2 => ciphertext = xorArrays plaintext key
            | .ciphertext3 | .ciphertext4 =>
                (associatedData platform.cbor th).length ≤
                    associatedDataDefaultSize ∧
                  platform.crypto.aeadEncrypt plaintext key iv
                      (associatedData platform.cbor th)
                      (getAeadMacLen suite.edhocAead) = some ciphertext ∧
                    ciphertext.length ≤ plaintextDefaultSize := by
  have ivFits : getAeadIvLen suite.edhocAead ≤ aeadIvDefaultSize := by
    cases suite.edhocAead <;> decide
  have macFits : getAeadMacLen suite.edhocAead ≤ macDefaultSize := by
    cases suite.edhocAead <;> decide
  unfold ciphertextEncrypt associatedDataEncode
  simp only [outcome_bind_eq_ok, checkBufferSize_eq_ok, ivFits, macFits,
    exists_const, true_and, Prod.exists]
  have sealing : ∀ key iv : Bytes,
      (do
        let aad ←
          cborEncode (associatedData platform.cbor th)
            associatedDataDefaultSize
        let sealed ←
          tryExpect
            (platform.crypto.aeadEncrypt plaintext key iv aad
              (getAeadMacLen suite.edhocAead))
        memcpy plaintextDefaultSize sealed) = .ok ciphertext ↔
      (associatedData platform.cbor th).length ≤ associatedDataDefaultSize ∧
        platform.crypto.aeadEncrypt plaintext key iv
            (associatedData platform.cbor th)
            (getAeadMacLen suite.edhocAead) = some ciphertext ∧
          ciphertext.length ≤ plaintextDefaultSize := by
    intro key iv
    simp only [outcome_bind_eq_ok, cborEncode_eq_ok, tryExpect_eq_ok,
      memcpy_eq_ok]
    constructor
    · rintro ⟨_, ⟨aadFits, rfl⟩, _, encrypted, fits, rfl⟩
      exact ⟨aadFits, encrypted, fits⟩
    · rintro ⟨aadFits, encrypted, fits⟩
      exact ⟨_, ⟨aadFits, rfl⟩, _, encrypted, fits, rfl⟩
  cases ctxt with
  | ciphertext2 =>
      simp only [Except.ok.injEq, eq_comm]
  | ciphertext3 | ciphertext4 =>
      simp only [sealing]

theorem ciphertextEncrypt_length {ctxt : Ciphertext} {suite : Suite}
    {prk th plaintext ciphertext : Bytes}
    (encrypted : ciphertextEncrypt platform ctxt suite prk th plaintext =
      .ok ciphertext) : ciphertext.length ≤ plaintextDefaultSize := by
  obtain ⟨keyFits, key, iv, generated, sealed⟩ :=
    ciphertextEncrypt_eq_ok.mp encrypted
  cases ctxt with
  | ciphertext2 =>
      have textFits : plaintext.length ≤ plaintextDefaultSize := keyFits
      rw [sealed, xorArrays_length]
      omega
  | ciphertext3 | ciphertext4 =>
      exact sealed.2.2

/-- The receiver of a ciphertext gets the plaintext back. -/
theorem ciphertextDecrypt_eq_ok
    (aeadInverts : platform.crypto.AeadInverts) {ctxt : Ciphertext}
    {suite : Suite} {prk th plaintext ciphertext received : Bytes}
    (encrypted : ciphertextEncrypt platform ctxt suite prk th plaintext =
      .ok ciphertext) :
    ciphertextDecrypt platform ctxt suite prk th ciphertext = .ok received ↔
      (associatedData platform.cbor th).length ≤ associatedDataDefaultSize ∧
        received = plaintext := by
  have ivFits : getAeadIvLen suite.edhocAead ≤ aeadIvDefaultSize := by
    cases suite.edhocAead <;> decide
  obtain ⟨keyFits, key, iv, generated, sealed⟩ :=
    ciphertextEncrypt_eq_ok.mp encrypted
  have keyLength_eq := keyGen_length generated
  have opening : ∀ tagLen,
      platform.crypto.aeadEncrypt plaintext key iv
          (associatedData platform.cbor th) tagLen = some ciphertext →
        ciphertext.length ≤ plaintextDefaultSize →
          ((do
              checkBufferSize plaintextDefaultSize
                (uint32 (ciphertext.length - tagLen))
              tryExpect
                (platform.crypto.aeadDecrypt ciphertext key iv
                  (associatedData platform.cbor th) tagLen)) =
            .ok received ↔ received = plaintext) := by
    intro tagLen sealedByAead fits
    have length := platform.crypto.aeadEncrypt_length sealedByAead
    have textLength : uint32 (ciphertext.length - tagLen) =
        plaintext.length := by
      unfold plaintextDefaultSize at fits
      rw [uint32_of_nonneg (by omega) (by omega)]
      omega
    rw [textLength, checkBufferSize_of_le (by omega), outcome_ok_bind,
      aeadInverts sealedByAead, tryExpect, Except.ok.injEq]
    exact eq_comm
  unfold ciphertextDecrypt associatedDataEncode
  cases ctxt with
  | ciphertext2 =>
      have sameLength : plaintext.length = key.length := keyLength_eq.symm
      have textLength : ciphertext.length = plaintext.length := by
        rw [sealed, xorArrays_length]
        omega
      have textFits : plaintext.length ≤ plaintextDefaultSize := keyFits
      simp only [textLength]
      rw [checkBufferSize_of_le keyFits, outcome_ok_bind,
        checkBufferSize_of_le ivFits, outcome_ok_bind, generated,
        outcome_ok_bind]
      simp only [outcome_bind_eq_ok, cborEncode_eq_ok,
        checkBufferSize_of_le textFits, Except.ok.injEq, sealed,
        xorArrays_cancel sameLength]
      constructor
      · rintro ⟨_, ⟨aadFits, _⟩, _, _, rfl⟩
        exact ⟨aadFits, rfl⟩
      · rintro ⟨aadFits, rfl⟩
        exact ⟨_, ⟨aadFits, rfl⟩, (), trivial, rfl⟩
  | ciphertext3 | ciphertext4 =>
      obtain ⟨aadFits, sealedByAead, fits⟩ := sealed
      dsimp only [keyLength] at keyFits generated ⊢
      rw [checkBufferSize_of_le keyFits, outcome_ok_bind,
        checkBufferSize_of_le ivFits, outcome_ok_bind, generated,
        outcome_ok_bind, cborEncode_of_le aadFits, outcome_ok_bind,
        opening _ sealedByAead fits]
      exact ⟨fun same => ⟨aadFits, same⟩, And.right⟩

end

end UoscoreUedhoc.Edhoc

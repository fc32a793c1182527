import UoscoreUedhoc.Oscore.Coap2Oscore

/-!
# What the packet writers write

`options_into_byte_string` and `coap2buf` on the inputs they accept, as
concatenations of what they write for each part.
-/

namespace UoscoreUedhoc.Oscore

open UoscoreUedhoc

/-! ## Options -/

theorem extendedBytes_length_le (value : UInt16) :
    (extendedBytes value).length ≤ 2 := by
  unfold extendedBytes
  split
  · simp
  · split
    · simp
    · simp

theorem optionHeader_length_le (option : OCoapOption) :
    (optionHeader option).length ≤ 5 := by
  have deltaBytes := extendedBytes_length_le option.delta
  have lenBytes := extendedBytes_length_le option.len.toUInt16
  simp only [optionHeader, List.length_cons, List.length_append]
  omega

/-- The bytes of an option with its value. -/
def optionWritten (option : OCoapOption) : Bytes :=
  optionHeader option ++ option.value.take option.len.toNat

/-- The bytes of a list of options. -/
def optionsWritten (options : List OCoapOption) : Bytes :=
  (options.map optionWritten).flatten

/-- The value of every option is there. -/
def HasValues (options : List OCoapOption) : Prop :=
  ∀ option ∈ options, option.len.toNat ≤ option.value.length

theorem optionWritten_length {option : OCoapOption}
    (hasValue : option.len.toNat ≤ option.value.length) :
    (optionWritten option).length =
      (optionHeader option).length + option.len.toNat := by
  rw [optionWritten, List.length_append, List.length_take_of_le hasValue]

theorem optionsIntoByteString_eq_ok {capacity : Nat}
    {options : List OCoapOption} {bytes : Bytes} :
    optionsIntoByteString capacity options = .ok bytes ↔
      HasValues options ∧ (optionsWritten options).length ≤ capacity ∧
        bytes = optionsWritten options := by
  induction options generalizing capacity bytes with
  | nil =>
      simp [optionsIntoByteString, HasValues, optionsWritten, eq_comm]
  | cons option options inductionHypothesis =>
      have split :
          optionsWritten (option :: options) =
            optionWritten option ++ optionsWritten options :=
        rfl
      have values :
          HasValues (option :: options) ↔
            option.len.toNat ≤ option.value.length ∧ HasValues options :=
        List.forall_mem_cons
      rw [optionsIntoByteString, split, values, List.length_append]
      by_cases headerFits : capacity < (optionHeader option).length
      · rw [if_pos headerFits]
        constructor
        · intro impossible
          cases impossible
        · intro written
          obtain ⟨⟨hasValue, _⟩, fits, _⟩ := written
          rw [optionWritten_length hasValue] at fits
          omega
      · rw [if_neg headerFits]
        simp only [outcome_bind_eq_ok, memcpyS_eq_ok, inductionHypothesis,
          Except.ok.injEq]
        constructor
        · intro done
          obtain ⟨_, ⟨valueFits, hasValue, rfl⟩, _,
            ⟨otherValues, othersFit, rfl⟩, rfl⟩ := done
          refine ⟨⟨hasValue, otherValues⟩, ?_, rfl⟩
          rw [optionWritten_length hasValue]
          omega
        · intro written
          obtain ⟨⟨hasValue, otherValues⟩, fits, rfl⟩ := written
          rw [optionWritten_length hasValue] at fits
          exact
            ⟨_, ⟨by omega, hasValue, rfl⟩, _, ⟨otherValues, by omega, rfl⟩,
              rfl⟩

theorem optionsWritten_length_le {options : List OCoapOption}
    (values : HasValues options) :
    (optionsWritten options).length ≤ maximalOptionsLen options := by
  induction options with
  | nil =>
      exact Nat.le_refl 0
  | cons option options inductionHypothesis =>
      obtain ⟨hasValue, otherValues⟩ := List.forall_mem_cons.mp values
      have rest := inductionHypothesis otherValues
      have header := optionHeader_length_le option
      unfold optionsWritten maximalOptionsLen at rest ⊢
      rw [List.map_cons, List.flatten_cons, List.length_append, List.map_cons,
        List.sum_cons, optionWritten_length hasValue]
      omega

/-- With the room that is reserved for them, options are converted unless a
value is missing. -/
theorem optionsIntoByteString_eq_undefined {capacity : Nat}
    {options : List OCoapOption}
    (room : maximalOptionsLen options ≤ capacity) :
    optionsIntoByteString capacity options = undefinedBehaviour ↔
      ¬ HasValues options := by
  induction options generalizing capacity with
  | nil =>
      apply iff_of_false
      · intro impossible
        cases impossible
      · exact not_not.mpr fun _ member => nomatch member
  | cons option options inductionHypothesis =>
      have header := optionHeader_length_le option
      have values :
          HasValues (option :: options) ↔
            option.len.toNat ≤ option.value.length ∧ HasValues options :=
        List.forall_mem_cons
      unfold maximalOptionsLen at room
      rw [List.map_cons, List.sum_cons] at room
      have others :
          maximalOptionsLen options ≤
            capacity - (optionHeader option).length - option.len.toNat := by
        unfold maximalOptionsLen
        omega
      rw [optionsIntoByteString, if_neg (by omega), values,
        outcome_bind_eq_undefined, memcpyS_eq_undefined]
      by_cases hasValue : option.len.toNat ≤ option.value.length
      · have copied :=
          memcpyS_eq_ok.mpr
            ⟨(by omega :
              option.len.toNat ≤ capacity - (optionHeader option).length),
              hasValue, rfl⟩
        simp only [copied, hasValue, not_lt.mpr hasValue, and_false, false_or,
          true_and, Except.ok.injEq, exists_eq_left',
          outcome_bind_eq_undefined]
        rw [inductionHypothesis others]
        simp [undefinedBehaviour]
      · apply iff_of_true
        · exact Or.inl ⟨by omega, Nat.lt_of_not_le hasValue⟩
        · exact fun both => hasValue both.1

/-! ## Packets -/

/-- The bytes of a payload, with the marker in front of it. -/
def payloadWritten (packet : OCoapPacket) : Bytes :=
  if packet.payloadLen = 0 then []
  else 0xFF :: packet.payload.take packet.payloadLen

/-- The bytes of the token. -/
def tokenWritten (packet : OCoapPacket) : Bytes :=
  if 0 < packet.header.tkl then
    (packet.token.getD []).take packet.header.tkl.toNat
  else
    []

/-- The token that `coap2buf` copies is there. -/
def HasToken (packet : OCoapPacket) : Prop :=
  0 < packet.header.tkl →
    ∃ token, packet.token = some token ∧
      packet.header.tkl.toNat ≤ token.length

theorem tokenBytes_eq_ok {packet : OCoapPacket} {capacity : Nat}
    {token : Bytes} :
    tokenBytes packet capacity = .ok token ↔
      HasToken packet ∧
        (0 < packet.header.tkl →
          packet.header.tkl.toNat ≤ capacity - headerLen) ∧
        token = tokenWritten packet := by
  unfold tokenBytes HasToken tokenWritten
  by_cases present : 0 < packet.header.tkl
  · rw [if_pos present, if_pos present]
    simp only [outcome_bind_eq_ok, orUndefined_eq_ok, memcpyS_eq_ok, present,
      true_implies]
    constructor
    · intro copied
      obtain ⟨source, isSource, fits, available, rfl⟩ := copied
      refine ⟨⟨source, isSource, available⟩, fits, ?_⟩
      rw [isSource]
      rfl
    · intro described
      obtain ⟨⟨source, isSource, available⟩, fits, rfl⟩ := described
      refine ⟨source, isSource, fits, available, ?_⟩
      rw [isSource]
      rfl
  · rw [if_neg present, if_neg present, Except.ok.injEq]
    simp only [present, false_implies, true_and, eq_comm]

theorem tokenWritten_length {packet : OCoapPacket}
    (hasToken : HasToken packet) :
    (tokenWritten packet).length = packet.header.tkl.toNat := by
  unfold tokenWritten
  by_cases present : 0 < packet.header.tkl
  · obtain ⟨token, isToken, available⟩ := hasToken present
    rw [if_pos present, isToken]
    exact List.length_take_of_le available
  · have none : packet.header.tkl.toNat = 0 := by
      simpa [UInt8.lt_iff_toNat_lt] using present
    rw [if_neg present, none]
    rfl

/-- What `coap2buf` writes. -/
def packetWritten (packet : OCoapPacket) (options : List OCoapOption) :
    Bytes :=
  headerBytes packet.header ++ tokenWritten packet ++
    optionsWritten options ++ payloadWritten packet

/-- The end of `coap2buf`, behind the options. -/
theorem payloadPart_eq_ok {packet : OCoapPacket} {capacity offset : Nat}
    {front output : Bytes} (fits : offset ≤ capacity) :
    (if packet.payloadLen = 0 then
          .ok front
        else if capacity ≤ offset then
          undefinedBehaviour
        else do
          let payload ←
            memcpyS (capacity - (offset + 1)) packet.payload packet.payloadLen
          .ok (front ++ 0xFF :: payload) : Outcome Bytes) = .ok output ↔
      packet.payloadLen ≤ packet.payload.length ∧
        offset + (payloadWritten packet).length ≤ capacity ∧
        output = front ++ payloadWritten packet := by
  unfold payloadWritten
  by_cases noPayload : packet.payloadLen = 0
  · simp only [noPayload, if_true, Except.ok.injEq, List.append_nil,
      List.length_nil, Nat.add_zero, Nat.zero_le, fits, true_and, eq_comm]
  · simp only [noPayload, if_false]
    by_cases full : capacity ≤ offset
    · simp only [full, if_true, undefinedBehaviour, reduceCtorEq, false_iff,
        List.length_cons]
      omega
    · simp only [full, if_false, outcome_bind_eq_ok, memcpyS_eq_ok,
        Except.ok.injEq, List.length_cons, List.length_take]
      constructor
      · intro copied
        obtain ⟨_, ⟨room, available, rfl⟩, rfl⟩ := copied
        exact ⟨available, by omega, rfl⟩
      · intro described
        obtain ⟨available, room, rfl⟩ := described
        exact ⟨_, ⟨by omega, available, rfl⟩, rfl⟩

theorem coap2buf_eq_ok {packet : OCoapPacket} {capacity : Nat}
    {output : Bytes} :
    coap2buf packet capacity = .ok output ↔
      ∃ options, packet.options = some options ∧
        maximalOptionsLen options ≤ maxCoapOptionsLen ∧
        HasValues options ∧ HasToken packet ∧
        packet.payloadLen ≤ packet.payload.length ∧
        (packetWritten packet options).length ≤ capacity ∧
        output = packetWritten packet options := by
  have headerLength : (headerBytes packet.header).length = headerLen := rfl
  unfold coap2buf
  by_cases headerFits : capacity < headerLen
  · rw [if_pos headerFits]
    constructor
    · intro impossible
      cases impossible
    · intro described
      obtain ⟨_, _, _, _, _, _, fits, _⟩ := described
      simp only [packetWritten, List.length_append, headerLength] at fits
      omega
  · rw [if_neg headerFits]
    simp only [outcome_bind_eq_ok, tokenBytes_eq_ok, orUndefined_eq_ok,
      checkBufferSize_eq_ok, optionsIntoByteString_eq_ok, memcpyS_eq_ok,
      List.take_length]
    constructor
    · intro done
      obtain ⟨_, ⟨hasToken, tokenFits, rfl⟩, options, isOptions, _, short, _,
        ⟨values, _, rfl⟩, _, ⟨optionsFit, _, rfl⟩, done⟩ := done
      have tokenLength := tokenWritten_length hasToken
      have front :
          headerLen + (tokenWritten packet).length +
              (optionsWritten options).length ≤ capacity := by
        by_cases present : 0 < packet.header.tkl
        · have fits := tokenFits present
          omega
        · have none : packet.header.tkl.toNat = 0 := by
            simpa [UInt8.lt_iff_toNat_lt] using present
          omega
      obtain ⟨available, fits, rfl⟩ := (payloadPart_eq_ok front).mp done
      refine
        ⟨options, isOptions, short, values, hasToken, available, ?_, rfl⟩
      simp only [packetWritten, List.length_append, headerLength]
      exact fits
    · intro described
      obtain ⟨options, isOptions, short, values, hasToken, available, fits,
        rfl⟩ := described
      have tokenLength := tokenWritten_length hasToken
      simp only [packetWritten, List.length_append, headerLength] at fits
      refine
        ⟨_, ⟨hasToken, fun _ => by omega, rfl⟩, options, isOptions, (), short,
          _, ⟨values, optionsWritten_length_le values, rfl⟩, _,
          ⟨by omega, Nat.le_refl _, rfl⟩, ?_⟩
      exact (payloadPart_eq_ok (by omega)).mpr ⟨available, fits, rfl⟩

end UoscoreUedhoc.Oscore

import UoscoreUedhoc.Oscore.OptionMerge
import UoscoreUedhoc.Oscore.RequestBuffers
import UoscoreUedhoc.Oscore.WrittenOptions

/-!
# The plaintext and its parser

`plaintext_setup` writes the code, the E-options and the payload that
`oscore_decrypted_payload_parser` reads.  The parser looks for the first `0xFF`
without regard to the options in front of it.
-/

namespace UoscoreUedhoc.Oscore

open UoscoreUedhoc
open UoscoreUedhoc.Coap

/-! ## The plaintext -/

/-- The length of the plaintext of a packet. -/
def neededPlaintextLen (packet : OCoapPacket) (eOptions : List OCoapOption) :
    Nat :=
  1 + (optionsWritten eOptions).length + payloadRoom packet.payloadLen

/-- With the length it needs, the plaintext consists of its parts. -/
theorem plaintextSetup_exact {packet : OCoapPacket}
    {eOptions : List OCoapOption} {plaintext : Bytes}
    (done :
      plaintextSetup packet eOptions (neededPlaintextLen packet eOptions) =
        .ok plaintext) :
    HasValues eOptions ∧ maximalOptionsLen eOptions % 2 ^ 16 ≤ maxEOptions ∧
      packet.payloadLen ≤ packet.payload.length ∧
      plaintext =
        packet.header.code ::
          (optionsWritten eOptions ++
            markedPayload (packet.payload.take packet.payloadLen)) := by
  unfold plaintextSetup at done
  simp only [outcome_bind_eq_ok, checkBufferSize_eq_ok,
    optionsIntoByteString_eq_ok, memcpyS_eq_ok] at done
  obtain ⟨_, room, _, ⟨values, _, rfl⟩, _, ⟨_, _, rfl⟩, done⟩ := done
  rw [List.take_length] at done
  unfold neededPlaintextLen payloadRoom at done
  by_cases none : packet.payloadLen = 0
  · rw [if_pos none, if_pos none] at done
    obtain ⟨_, rfl⟩ := writtenPrefix_eq_ok.mp done
    refine ⟨values, room, by omega, ?_⟩
    have empty : packet.payload.take packet.payloadLen = [] := by
      rw [none, List.take_zero]
    rw [empty, markedPayload, if_pos rfl, List.append_nil,
      List.take_of_length_le]
    rw [List.length_cons]
    omega
  · rw [if_neg none, if_neg none] at done
    obtain ⟨_, copied, done⟩ := outcome_bind_eq_ok.mp done
    obtain ⟨_, available, rfl⟩ := memcpyS_eq_ok.mp copied
    have length := List.length_take_of_le available
    split at done
    · cases done
    · obtain ⟨_, rfl⟩ := writtenPrefix_eq_ok.mp done
      refine ⟨values, room, available, ?_⟩
      have some : packet.payload.take packet.payloadLen ≠ [] := by
        intro empty
        rw [empty, List.length_nil] at length
        exact none length.symm
      rw [markedPayload, if_neg some, List.take_of_length_le]
      · rfl
      · rw [List.length_append, List.length_cons, List.length_cons, length]
        omega

/-- The parser as an option loop between the code and the first `0xFF`. -/
theorem oscoreDecryptedPayloadParser_cons (code : UInt8) (rest : Bytes) :
    oscoreDecryptedPayloadParser (code :: rest) =
      if rest.dropWhile (· ≠ 0xFF) = [] ∧ rest.length + 1 = maxPlaintextLen then
        undefinedBehaviour
      else (do
        let eOptions ←
          optionsWalk oscorePacketOptionsField oscorePacketOptionsField
            maxInnerOptionCount
            ((rest.takeWhile (· ≠ 0xFF)).length % 2 ^ 16) 0 rest
        .ok
          { code, eOptions, payload := (rest.dropWhile (· ≠ 0xFF)).tail }) := by
  have walk :=
    parseOptions_eq_walk oscorePacketOptionsField oscorePacketOptionsField
      (show maxInnerOptionCount * maxOptionBytes < 2 ^ 16 by decide) rest
      (UInt16.ofNat (rest.takeWhile (· ≠ 0xFF)).length)
  rw [UInt16.toNat_ofNat'] at walk
  unfold oscoreDecryptedPayloadParser
  simp only [List.span_eq_takeWhile_dropWhile, List.length_cons]
  split
  · rfl
  · rw [← walk]
    rfl

theorem oscoreDecryptedPayloadParser_length_le {plaintext : Bytes}
    {inner : DecryptedPayload}
    (parsed : oscoreDecryptedPayloadParser plaintext = .ok inner) :
    inner.eOptions.length ≤ maxInnerOptionCount := by
  cases plaintext with
  | nil =>
      cases parsed
  | cons code rest =>
      rw [oscoreDecryptedPayloadParser_cons] at parsed
      split at parsed
      · cases parsed
      · obtain ⟨eOptions, walked, same⟩ := outcome_bind_eq_ok.mp parsed
        cases same
        exact optionsWalk_length_le walked

/-! ## Options with their numbers -/

theorem SumsToNumbers.numbered {number : UInt8} {options : List OCoapOption}
    (sums : SumsToNumbers number.toUInt16 options) : Numbered number options := by
  induction options generalizing number with
  | nil =>
      trivial
  | cons option options inductionHypothesis =>
      obtain ⟨isNumber, rest⟩ := sums
      have narrowed := congrArg UInt16.toUInt8 isNumber
      rw [UInt16.toUInt8_add, UInt8.toUInt8_toUInt16, UInt8.toUInt8_toUInt16]
        at narrowed
      rw [isNumber] at rest
      exact ⟨narrowed.symm, inductionHypothesis rest⟩

/-- The deltas of ascending numbers fit into 8 bits. -/
theorem SumsToNumbers.delta_le {number : UInt8} {options : List OCoapOption}
    (sums : SumsToNumbers number.toUInt16 options)
    (first : ∀ option ∈ options, number ≤ option.optionNumber)
    (ascending :
      options.Pairwise fun option later =>
        option.optionNumber ≤ later.optionNumber) :
    ∀ option ∈ options, option.delta.toNat ≤ 255 := by
  induction options generalizing number with
  | nil =>
      intro option member
      cases member
  | cons next options inductionHypothesis =>
      obtain ⟨isNumber, rest⟩ := sums
      obtain ⟨isFirst, ascendingRest⟩ := List.pairwise_cons.mp ascending
      rw [isNumber] at rest
      intro option member
      rcases List.mem_cons.mp member with rfl | later
      · have above := first option List.mem_cons_self
        have wide := congrArg UInt16.toNat isNumber
        have numberBound := number.toNat_lt
        have nextBound := option.optionNumber.toNat_lt
        have deltaBound := option.delta.toNat_lt
        rw [UInt8.le_iff_toNat_le] at above
        rw [UInt16.toNat_add, UInt8.toNat_toUInt16, UInt8.toNat_toUInt16]
          at wide
        omega
      · exact inductionHypothesis rest isFirst ascendingRest option later

/-! ## The round trip -/

/-- The parser finds the code, the options and the payload of the packet. -/
def RestoresPlaintext (packet : OCoapPacket) (eOptions : List OCoapOption)
    (plaintext : Bytes) : Prop :=
  ∃ decrypted, oscoreDecryptedPayloadParser plaintext = .ok decrypted ∧
    decrypted.code = packet.header.code ∧
    decrypted.eOptions.map OCoapOption.content =
      eOptions.map OCoapOption.content ∧
    decrypted.payload = packet.payload.take packet.payloadLen

/-- The parser finds the parts of a plaintext when nothing in front of the
payload marker is taken for it. -/
theorem plaintext_restored {packet : OCoapPacket}
    {eOptions : List OCoapOption} {plaintext : Bytes}
    (few : eOptions.length ≤ maxInnerOptionCount)
    (numbered : Numbered 0 eOptions)
    (unmarked :
      Unmarked (optionsWritten eOptions)
        (packet.payload.take packet.payloadLen))
    (done :
      plaintextSetup packet eOptions (neededPlaintextLen packet eOptions) =
        .ok plaintext) :
    ∃ stored,
      oscoreDecryptedPayloadParser plaintext =
          .ok
            { code := packet.header.code
              eOptions := stored
              payload := packet.payload.take packet.payloadLen } ∧
        stored.map OCoapOption.content =
          eOptions.map OCoapOption.content ∧
        HasValues stored := by
  obtain ⟨values, room, _, rfl⟩ := plaintextSetup_exact done
  obtain ⟨stored, walked, contents, storedValues⟩ :=
    @writtenOptions_walked oscorePacketOptionsField oscorePacketOptionsField
      eOptions maxInnerOptionCount (packet.payload.take packet.payloadLen)
      oscorePacketOptionsField_readsWritten
      (fun option _ => by
        rw [oscorePacketOptionsField_readsWritten.len,
          UInt8.toUInt8_toUInt16])
      values numbered few (by decide) unmarked
  have inside :
      ¬ ((optionsWritten eOptions ++
            markedPayload
              (packet.payload.take packet.payloadLen)).dropWhile
                (· ≠ 0xFF) = [] ∧
          (optionsWritten eOptions ++
            markedPayload
              (packet.payload.take packet.payloadLen)).length + 1 =
                maxPlaintextLen) := by
    intro full
    obtain ⟨noMarker, length⟩ := full
    obtain ⟨_, payload⟩ := unmarked_region unmarked
    rw [noMarker, List.tail_nil] at payload
    rw [← payload, markedPayload, if_pos rfl, List.append_nil] at length
    have fits := optionsWritten_length_le values
    have bound := maximalOptionsLen_le eOptions
    unfold maxInnerOptionCount at few
    unfold maxOptionBytes at bound
    unfold maxEOptions at room
    unfold maxPlaintextLen at length
    omega
  rw [oscoreDecryptedPayloadParser_cons, if_neg inside, walked,
    outcome_ok_bind, (unmarked_region unmarked).2]
  exact ⟨stored, rfl, contents, storedValues⟩

/-- The plaintext is parsed to its parts exactly when nothing in front of the
payload marker is taken for it. -/
theorem plaintext_restored_iff (packet : OCoapPacket)
    (eOptions : List OCoapOption) (plaintext : Bytes)
    (few : eOptions.length ≤ maxInnerOptionCount)
    (sums : SumsToNumbers 0 eOptions)
    (ascending :
      eOptions.Pairwise fun option later =>
        option.optionNumber ≤ later.optionNumber)
    (done :
      plaintextSetup packet eOptions (neededPlaintextLen packet eOptions) =
        .ok plaintext) :
    RestoresPlaintext packet eOptions plaintext ↔
      UnmarkedOptions eOptions (packet.payload.take packet.payloadLen) := by
  obtain ⟨values, _, _, isPlaintext⟩ := plaintextSetup_exact done
  have bounds :=
    @SumsToNumbers.delta_le 0 eOptions sums
      (fun option _ => UInt8.zero_le) ascending
  rw [← unmarked_written_iff bounds values]
  constructor
  · intro restored
    obtain ⟨decrypted, parsed, _, _, payload⟩ := restored
    rw [isPlaintext, oscoreDecryptedPayloadParser_cons] at parsed
    split at parsed
    · cases parsed
    · obtain ⟨options, _, same⟩ := outcome_bind_eq_ok.mp parsed
      cases same
      exact unmarked_of_tail (congrArg List.length payload)
  · intro unmarked
    obtain ⟨stored, parsed, contents, _⟩ :=
      plaintext_restored few (SumsToNumbers.numbered sums) unmarked done
    exact ⟨_, parsed, rfl, contents, rfl⟩

/-- A packet with the code and the payload of a GET request with a body. -/
def bodyPacket (payload : Bytes) : OCoapPacket where
  header := { ver := 1, type := 0, tkl := 0, code := 1, mid := 1 }
  token := some []
  options := some []
  payloadLen := payload.length
  payload := payload

/-- A request for the path `tv1` with the payload `a`. -/
theorem plaintext_restored_path :
    RestoresPlaintext (bodyPacket [0x61])
      [ { delta := 11, len := 3, value := [0x74, 0x76, 0x31]
          optionNumber := 11 } ]
      [1, 0xB3, 0x74, 0x76, 0x31, 0xFF, 0x61] :=
  (plaintext_restored_iff (bodyPacket [0x61])
      [ { delta := 11, len := 3, value := [0x74, 0x76, 0x31]
          optionNumber := 11 } ]
      [1, 0xB3, 0x74, 0x76, 0x31, 0xFF, 0x61] (by decide)
      ⟨by decide, trivial⟩ (by decide) rfl).mpr
    (Or.inl (by decide))

/-- A path with the byte `0xFF` in front of a payload. -/
theorem markedPath_lost :
    ¬ ∀ (packet : OCoapPacket) (eOptions : List OCoapOption)
        (plaintext : Bytes), eOptions.length ≤ maxInnerOptionCount →
        SumsToNumbers 0 eOptions →
        (eOptions.Pairwise fun option later =>
          option.optionNumber ≤ later.optionNumber) →
        plaintextSetup packet eOptions (neededPlaintextLen packet eOptions) =
          .ok plaintext →
        RestoresPlaintext packet eOptions plaintext := by
  intro restores
  obtain ⟨decrypted, parsed, _, _, payload⟩ :=
    restores (bodyPacket [0x61])
      [ { delta := 11, len := 1, value := [0xFF], optionNumber := 11 } ]
      [1, 0xB1, 0xFF, 0xFF, 0x61] (by decide) ⟨by decide, trivial⟩
      (by decide) rfl
  have found :
      (oscoreDecryptedPayloadParser [1, 0xB1, 0xFF, 0xFF, 0x61]).map
          DecryptedPayload.payload = .ok [0xFF, 0x61] :=
    rfl
  rw [parsed] at found
  have same := Except.ok.inj found
  rw [payload] at same
  exact absurd same (by decide)

end UoscoreUedhoc.Oscore

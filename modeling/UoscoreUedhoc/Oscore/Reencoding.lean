import UoscoreUedhoc.Oscore.MessagePackets
import UoscoreUedhoc.Oscore.WrittenOptions

/-!
# Writing a parsed message again

`buf2options` makes an extended delta 26 too small and
`options_into_byte_string` makes it 26 too large, so that the two cancel where
the delta in between has the same number of extension bytes.  The lengths of
values are read right and written wrong.
-/

namespace UoscoreUedhoc.Oscore

open UoscoreUedhoc
open UoscoreUedhoc.Coap

/-! ## Heads that are written as they were read -/

/-- The number is written with the nibble and the extension bytes of the
format. -/
def WritesFormat (value : UInt16) (number : Nat) : Prop :=
  extendedNibble value = nibbleOf number ∧
    extendedBytes value = extensionOf number

instance (value : UInt16) (number : Nat) :
    Decidable (WritesFormat value number) :=
  inferInstanceAs
    (Decidable
      (extendedNibble value = nibbleOf number ∧
        extendedBytes value = extensionOf number))

theorem writtenHead_eq_iff {delta len : UInt16} {head : EncodedHead} :
    writtenHead delta len = head ↔
      WritesFormat delta head.delta ∧ WritesFormat len head.length := by
  obtain ⟨deltaNibbleIs, deltaExtensionIs⟩ :=
    encode_extensionValue head.deltaNibble_lt head.deltaExtension_length
  obtain ⟨lenNibbleIs, lenExtensionIs⟩ :=
    encode_extensionValue head.lenNibble_lt head.lenExtension_length
  obtain ⟨writtenDelta, writtenLen⟩ := writtenHead_nibbles delta len
  unfold WritesFormat EncodedHead.delta EncodedHead.length
  rw [deltaNibbleIs, deltaExtensionIs, lenNibbleIs, lenExtensionIs]
  constructor
  · intro same
    rw [same] at writtenDelta writtenLen
    exact
      ⟨⟨writtenDelta.symm, congrArg EncodedHead.deltaExtension same⟩,
        writtenLen.symm, congrArg EncodedHead.lenExtension same⟩
  · intro formats
    obtain ⟨⟨deltaIs, deltaBytes⟩, lenIs, lenBytes⟩ := formats
    have firstIs :
        joinNibbles (extendedNibble delta) (extendedNibble len) =
          head.first := by
      rw [deltaIs, lenIs, joinNibbles_nibbles]
    obtain ⟨first, deltaExtension, lenExtension, _, _, _, _⟩ := head
    simp only [writtenHead, EncodedHead.mk.injEq]
    exact ⟨firstIs, deltaBytes, lenBytes⟩

theorem readDelta_writesFormat_iff {delta : Nat} (bound : delta ≤ 255) :
    WritesFormat (decodedNumber (-26) delta).toUInt16 delta ↔
      delta < 13 ∨ 39 ≤ delta := by
  have all :
      ∀ delta < 256,
        (WritesFormat (decodedNumber (-26) delta).toUInt16 delta ↔
          delta < 13 ∨ 39 ≤ delta) := by
    decide +kernel
  exact all delta (by omega)

theorem readLength_writesFormat_iff {length : Nat} (bound : length ≤ 255) :
    WritesFormat (UInt8.ofNat length).toUInt16 length ↔ length < 13 := by
  have all :
      ∀ length < 256,
        (WritesFormat (UInt8.ofNat length).toUInt16 length ↔
          length < 13) := by
    decide +kernel
  exact all length (by omega)

/-- A delta and a length that survive reading and writing. -/
def IsReproduced (head : EncodedHead) : Prop :=
  (head.delta < 13 ∨ 39 ≤ head.delta) ∧ head.length < 13

instance (head : EncodedHead) : Decidable (IsReproduced head) :=
  inferInstanceAs
    (Decidable ((head.delta < 13 ∨ 39 ≤ head.delta) ∧ head.length < 13))

theorem readHead_written_iff {head : EncodedHead} (delta : head.delta ≤ 255)
    (length : head.length ≤ 255) :
    writtenHead (buf2optionsDelta.delta head).toUInt16
        (buf2optionsLen.len head).toUInt16 = head ↔
      IsReproduced head := by
  rw [writtenHead_eq_iff, buf2optionsDelta_delta, buf2optionsLen_len,
    readDelta_writesFormat_iff delta, readLength_writesFormat_iff length]
  rfl

/-! ## Options that are written as they were read -/

theorem parsed_written {len : ExtensionDecoder} {delta : ExtensionDecoder}
    (option : FramedOption len) (number : UInt8) (after : Bytes) :
    optionWritten (option.parsed delta number after) =
      (writtenHead (delta.delta option.head).toUInt16
          (len.len option.head).toUInt16).bytes ++ option.value := by
  have value :=
    congrArg OptionContent.value
      (@FramedOption.parsed_content delta len option number after)
  unfold optionWritten
  exact congrArg _ value

theorem parsedOptions_written_of {framed : List (FramedOption buf2optionsLen)}
    (heads : ∀ option ∈ framed,
      writtenHead (buf2optionsDelta.delta option.head).toUInt16
          (buf2optionsLen.len option.head).toUInt16 = option.head)
    (number : UInt8) (after : Bytes) :
    optionsWritten (parsedOptions buf2optionsDelta number framed after) =
      framedBytes framed := by
  induction framed generalizing number with
  | nil =>
      rfl
  | cons option framed inductionHypothesis =>
      obtain ⟨head, others⟩ := List.forall_mem_cons.mp heads
      have rest :=
        inductionHypothesis others (number + buf2optionsDelta.delta option.head)
      unfold optionsWritten at rest ⊢
      rw [parsedOptions, List.map_cons, List.flatten_cons, rest,
        parsed_written, head, framedBytes_cons]
      rfl

theorem parsedOptions_written {framed : List (FramedOption buf2optionsLen)}
    (bounds : ∀ option ∈ framed,
      option.head.delta ≤ 255 ∧ option.head.length ≤ 255)
    (reproduced : ∀ option ∈ framed, IsReproduced option.head)
    (number : UInt8) (after : Bytes) :
    optionsWritten (parsedOptions buf2optionsDelta number framed after) =
      framedBytes framed := by
  apply parsedOptions_written_of
  intro option member
  obtain ⟨delta, length⟩ := bounds option member
  exact (readHead_written_iff delta length).mpr (reproduced option member)

/-- Where the parsed options are written as bytes of the message, they were the
first of its options and are reproduced. -/
theorem written_prefix {options : List MessageOption}
    {slots left previous : Nat} {number : UInt8} {after tail : Bytes}
    {stored : List OCoapOption}
    (numbers : ∀ option ∈ options, option.number ≤ 255)
    (lengths : ∀ option ∈ options, option.value.length ≤ 255)
    (inside :
      left ≤ (optionBytes (Coap.encodeOptions previous options)).length)
    (walked :
      optionsWalk buf2optionsDelta buf2optionsLen slots left number
          (optionBytes (Coap.encodeOptions previous options) ++ after) =
        .ok stored)
    (same :
      optionsWritten stored ++ tail =
        optionBytes (Coap.encodeOptions previous options) ++ after) :
    ∃ read rest last, options = read ++ rest ∧
      (∀ encoded ∈ Coap.encodeOptions previous read,
        IsReproduced encoded.head) ∧
      tail = optionBytes (Coap.encodeOptions last rest) ++ after := by
  induction options generalizing slots left previous number stored with
  | nil =>
      have nothing : left = 0 := by
        simpa [Coap.encodeOptions, optionBytes] using inside
      rw [nothing, optionsWalk_zero, Except.ok.injEq] at walked
      subst walked
      exact ⟨[], [], previous, rfl, by simp [Coap.encodeOptions], same⟩
  | cons option options inductionHypothesis =>
      obtain ⟨number_le, otherNumbers⟩ := List.forall_mem_cons.mp numbers
      obtain ⟨length_le, otherLengths⟩ := List.forall_mem_cons.mp lengths
      have total :=
        congrArg List.length (encodeOptions_cons_bytes previous option options)
      simp only [List.length_append] at total
      cases slots with
      | zero =>
          obtain ⟨_, rfl⟩ :=
            (optionsWalk_no_slot_eq_ok buf2optionsDelta).mp walked
          exact
            ⟨[], option :: options, previous, rfl,
              by simp [Coap.encodeOptions], same⟩
      | succ slots =>
          rcases (optionsWalk_succ_eq_ok buf2optionsDelta).mp walked with
            ⟨_, rfl⟩ | ⟨_, head, behind, others, split, walkedRest, rfl⟩
          · exact
              ⟨[], option :: options, previous, rfl,
                by simp [Coap.encodeOptions], same⟩
          · rw [encodeOptions_cons_bytes, List.append_assoc,
              List.append_assoc] at split same
            obtain ⟨rfl, rfl⟩ := EncodedHead.bytes_append_inj split
            have lenIs :=
              @buf2optionsLen_headOf option (by omega) previous
            let framed : FramedOption buf2optionsLen :=
              { head := headOf previous option
                value := option.value
                value_length := lenIs.symm }
            have first :
                optionsWritten
                    (framed.parsed buf2optionsDelta number
                        (optionBytes
                          (Coap.encodeOptions option.number options) ++
                            after) :: others) =
                  (writtenHead
                      (buf2optionsDelta.delta
                        (headOf previous option)).toUInt16
                      (buf2optionsLen.len
                        (headOf previous option)).toUInt16).bytes ++
                    (option.value ++ optionsWritten others) := by
              unfold optionsWritten
              rw [List.map_cons, List.flatten_cons, parsed_written,
                List.append_assoc]
            change
              optionsWritten
                  (framed.parsed buf2optionsDelta number
                      (optionBytes
                        (Coap.encodeOptions option.number options) ++
                          after) :: others) ++ tail = _ at same
            rw [first, List.append_assoc, List.append_assoc] at same
            obtain ⟨heads, values⟩ := EncodedHead.bytes_append_inj same
            have sameRest := List.append_cancel_left values
            rw [lenIs, List.drop_left] at walkedRest
            have deltaBound : (headOf previous option).delta ≤ 255 := by
              rw [headOf_delta]
              omega
            have lengthBound : (headOf previous option).length ≤ 255 := by
              rw [headOf_length]
              exact length_le
            have reproduced :=
              (readHead_written_iff deltaBound lengthBound).mp heads
            obtain ⟨read, rest, last, rfl, others, tailIs⟩ :=
              inductionHypothesis otherNumbers otherLengths
                (by rw [total] at inside; omega) walkedRest sameRest
            refine ⟨option :: read, rest, last, rfl, ?_, tailIs⟩
            intro encoded member
            rcases List.mem_cons.mp member with rfl | later
            · exact reproduced
            · exact others encoded later

/-! ## Messages -/

/-- Something follows the token, no delta is between 13 and 38, values have at
most 12 bytes, and no option byte is taken for the payload marker. -/
structure IsReencodable (message : Message) : Prop where
  nonempty : message.options ≠ [] ∨ message.payload ≠ []
  reproduced :
    ∀ encoded ∈ Coap.encodeOptions 0 message.options,
      IsReproduced encoded.head
  unmarked :
    Unmarked (optionBytes (Coap.encodeOptions 0 message.options))
      message.payload

/-- The room that `coap2buf` reserves for the options of a message. -/
def messageOptionsRoom (message : Message) : Nat :=
  (message.options.map fun option => 5 + option.value.length).sum

theorem maximalOptionsLen_parsed {delta len : ExtensionDecoder}
    (framed : List (FramedOption len)) (number : UInt8) (after : Bytes) :
    maximalOptionsLen (parsedOptions delta number framed after) =
      (framed.map fun option => 5 + option.value.length).sum := by
  induction framed generalizing number with
  | nil =>
      rfl
  | cons option framed inductionHypothesis =>
      have rest := inductionHypothesis (number + delta.delta option.head)
      unfold maximalOptionsLen at rest ⊢
      rw [parsedOptions, List.map_cons, List.sum_cons, rest, List.map_cons,
        List.sum_cons, option.value_length]
      rfl

theorem framedOptions_room {options : List MessageOption} {previous : Nat}
    (small :
      ∀ encoded ∈ Coap.encodeOptions previous options,
        encoded.head.length < 256) :
    ((framedOptions (Coap.encodeOptions previous options) small).map
        fun option => 5 + option.value.length).sum =
      (options.map fun option => 5 + option.value.length).sum := by
  induction options generalizing previous with
  | nil =>
      rfl
  | cons option options inductionHypothesis =>
      have rest :=
        @inductionHypothesis option.number fun encoded member =>
          small encoded (List.mem_cons_of_mem _ member)
      unfold framedOptions at rest ⊢
      simp only [Coap.encodeOptions, List.pmap_cons, List.map_cons,
        List.sum_cons, rest]
      rfl

theorem encodeOptions_delta_le {options : List MessageOption}
    (numbers : ∀ option ∈ options, option.number ≤ 255) (previous : Nat) :
    ∀ encoded ∈ Coap.encodeOptions previous options,
      encoded.head.delta ≤ 255 := by
  induction options generalizing previous with
  | nil =>
      intro encoded member
      cases member
  | cons option options inductionHypothesis =>
      obtain ⟨bound, others⟩ := List.forall_mem_cons.mp numbers
      intro encoded member
      rcases List.mem_cons.mp member with rfl | later
      · change (headOf previous option).delta ≤ 255
        rw [headOf_delta]
        omega
      · exact inductionHypothesis others option.number encoded later

theorem encodeOptions_eq_nil_of_bytes {options : List MessageOption}
    {previous : Nat} {after tail : Bytes}
    (tailMarked : tail = [] ∨ ∃ rest, tail = 0xFF :: rest)
    (same :
      tail = optionBytes (Coap.encodeOptions previous options) ++ after) :
    options = [] := by
  cases options with
  | nil =>
      rfl
  | cons option options =>
      rw [encodeOptions_cons_bytes, List.append_assoc] at same
      have valid := (headOf previous option).deltaNibble_lt
      rcases tailMarked with rfl | ⟨rest, rfl⟩
      · cases same
      · have first := (List.cons.inj same).1
        rw [← first] at valid
        exact absurd valid (by decide)

/-- A parsed message is written as it was exactly when it is reencodable. -/
theorem message_reencoded_iff (message : Message) (packet : OCoapPacket)
    (capacity : Nat) (small : HasByteOptions message)
    (room : messageOptionsRoom message ≤ maxCoapOptionsLen)
    (parsed : buf2coap message.bytes = .ok packet)
    (large : message.bytes.length ≤ capacity) :
    coap2buf packet capacity = .ok message.bytes ↔ IsReencodable message := by
  constructor
  · intro written
    obtain ⟨stored, present, _, _, _, _, _, same⟩ :=
      coap2buf_eq_ok.mp written
    obtain ⟨nonempty, rfl, walked⟩ := parsed_message parsed present
    have body := (packetWritten_message message stored).mp same.symm
    obtain ⟨read, rest, last, split, reproduced, tailIs⟩ :=
      written_prefix small.number small.length (regionLength_le message)
        walked body
    have nothing :=
      encodeOptions_eq_nil_of_bytes (markedPayload_marked _) tailIs
    subst nothing
    rw [List.append_nil] at split
    subst split
    refine ⟨bodyBytes_ne_nil_iff.mp nonempty, reproduced, ?_⟩
    apply unmarked_of_tail
    have payloads := congrArg List.tail tailIs
    rw [markedPayload_tail] at payloads
    exact congrArg List.length (payloads.trans (payloadBytes_tail message))
  · intro reencodable
    have nonempty := bodyBytes_ne_nil_iff.mpr reencodable.nonempty
    obtain ⟨walked, payload⟩ :=
      region_walked small.count small.lengths_lt reencodable.unmarked
    have isPacket := buf2coap_message nonempty
    rw [walked, outcome_ok_bind, parsed, Except.ok.injEq] at isPacket
    have bytes :=
      framedBytes_framedOptions (Coap.encodeOptions 0 message.options)
        small.lengths_lt
    have deltas := encodeOptions_delta_le small.number 0
    have written :
        optionsWritten
            (parsedOptions buf2optionsDelta 0
              (framedOptions (Coap.encodeOptions 0 message.options)
                small.lengths_lt) message.payloadBytes) =
          optionBytes (Coap.encodeOptions 0 message.options) := by
      rw [← bytes]
      apply parsedOptions_written
      · intro option member
        obtain ⟨encoded, isEncoded, rfl⟩ := List.mem_pmap.mp member
        exact
          ⟨deltas encoded isEncoded,
            Nat.le_of_lt_succ (small.lengths_lt encoded isEncoded)⟩
      · intro option member
        obtain ⟨encoded, isEncoded, rfl⟩ := List.mem_pmap.mp member
        exact reencodable.reproduced encoded isEncoded
    generalize isStored :
      parsedOptions buf2optionsDelta 0
          (framedOptions (Coap.encodeOptions 0 message.options)
            small.lengths_lt) message.payloadBytes = stored
      at walked isPacket written
    have same :
        packetWritten (messagePacket message stored) stored =
          message.bytes := by
      rw [packetWritten_message, written, payload]
      rfl
    obtain ⟨hasToken, available⟩ :=
      buf2coap_parts parsed (by rw [isPacket])
    rw [coap2buf_eq_ok, isPacket]
    refine
      ⟨stored, rfl, ?_, ?_, ?_, Nat.le_refl _, ?_, same.symm⟩
    · rw [← isStored, maximalOptionsLen_parsed, framedOptions_room]
      exact room
    · rw [← isStored]
      exact parsedOptions_hasValues _ _ _
    · rw [isPacket] at hasToken
      exact hasToken
    · change (packetWritten (messagePacket message stored) stored).length ≤ _
      rw [same]
      exact large

/-- A request with a path of two segments, the option 60, whose delta is
extended, and a payload. -/
def sizeMessage : Message where
  type := 0
  code := 2
  mid := 0x1234
  token := [0x7A, 0x31]
  options :=
    [⟨11, [0x74, 0x76, 0x31], pathNumber_lt, pathValue_length_lt⟩,
      ⟨11, [0x61], pathNumber_lt, letter_length_lt⟩,
      ⟨60, [0x61], by decide, letter_length_lt⟩]
  payload := [0x48, 0x69]
  type_lt := confirmable_type_lt
  token_length_le := token_length_le
  ascending := by decide
  empty := by
    intro isEmpty
    cases isEmpty

def sizePacket : OCoapPacket where
  header := { ver := 1, type := 0, tkl := 2, code := 2, mid := 0x1234 }
  token := some (sizeMessage.bytes.drop 4)
  options :=
    some
      [ { delta := 11, len := 3, value := sizeMessage.bytes.drop 7
          optionNumber := 11 },
        { delta := 0, len := 1, value := sizeMessage.bytes.drop 11
          optionNumber := 11 },
        { delta := 23, len := 1, value := sizeMessage.bytes.drop 14
          optionNumber := 34 } ]
  payloadLen := 2
  payload := [0x48, 0x69]

/-- The last option is read with the number 34 and written with the delta 49
that it had. -/
theorem sizeMessage_reencoded :
    coap2buf sizePacket 64 = .ok sizeMessage.bytes :=
  (message_reencoded_iff sizeMessage sizePacket 64
      ⟨by decide, by decide, by decide⟩ (by decide) rfl (by decide)).mpr
    ⟨by decide, by decide, by decide⟩

/-- The query is read with the delta 245 and written with two extension
bytes. -/
theorem queryMessage_not_reencoded :
    ¬ ∀ (message : Message) (packet : OCoapPacket) (capacity : Nat),
      HasByteOptions message → messageOptionsRoom message ≤ maxCoapOptionsLen →
      buf2coap message.bytes = .ok packet →
      message.bytes.length ≤ capacity →
      coap2buf packet capacity = .ok message.bytes := by
  intro reencodes
  have same :=
    reencodes queryMessage
      { header := { ver := 1, type := 0, tkl := 0, code := 1, mid := 1 }
        token := some []
        options := some
          [ { delta := 245, len := 1, value := [0x61]
              optionNumber := 245 } ]
        payloadLen := 0
        payload := [] }
      64 ⟨by decide, by decide, by decide⟩ (by decide) rfl (by decide)
  exact absurd same (by decide)

end UoscoreUedhoc.Oscore

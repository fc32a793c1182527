import UoscoreUedhoc.Oscore.MessageParsing
import UoscoreUedhoc.Oscore.WrittenOptions

/-!
# Round trip of E-options

`options_into_byte_string` and `oscore_packet_options_parser` shift extended
deltas and lengths by the same 13 and 269, in opposite directions.  So the parser
reads back every list of options that has been written, as long as the 16-bit
counter of the bytes and the 8-bit option number do not wrap.
-/

namespace UoscoreUedhoc.Oscore

open UoscoreUedhoc
open UoscoreUedhoc.Coap

/-! ## The parser -/

/-- `oscore_packet_options_parser` into an array of `slots` options: the options
and `*out_options_count`. -/
def oscorePacketOptionsParserInto (slots : Nat) (inData : Bytes)
    (inDataLen : UInt16) : Outcome (List OCoapOption × UInt8) := do
  let options ←
    optionsLoop oscorePacketOptionsField oscorePacketOptionsField inDataLen
      slots 0 0 inData
  .ok (options, UInt8.ofNat options.length)

/-- With the array of `o_coap_pkg_generate`. -/
theorem oscorePacketOptionsParser_eq_into (inData : Bytes)
    (inDataLen : UInt16) :
    oscorePacketOptionsParser inData inDataLen =
      (oscorePacketOptionsParserInto maxInnerOptionCount inData
        inDataLen).map Prod.fst := by
  unfold oscorePacketOptionsParser oscorePacketOptionsParserInto
  cases optionsLoop oscorePacketOptionsField oscorePacketOptionsField inDataLen
      maxInnerOptionCount 0 0 inData with
  | error fault =>
      rfl
  | ok options =>
      rfl

section Loop

variable {delta len : ExtensionDecoder} {slots : Nat} {inDataLen i : UInt16}

/-- The loop over options that end where the option bytes end. -/
theorem optionsLoop_framed (framed : List (FramedOption len))
    (few : framed.length ≤ slots)
    (ends : inDataLen.toNat = i.toNat + (framedBytes framed).length)
    (number : UInt8) (after : Bytes) :
    optionsLoop delta len inDataLen slots i number
        (framedBytes framed ++ after) =
      .ok (parsedOptions delta number framed after) := by
  induction framed generalizing slots i number with
  | nil =>
      have done : ¬ i < inDataLen := by
        rw [UInt16.lt_iff_toNat_lt, ends, framedBytes_nil, List.length_nil]
        omega
      cases slots with
      | zero =>
          rw [optionsLoop, if_neg done]
          rfl
      | succ slots =>
          rw [optionsLoop, if_neg done]
          rfl
  | cons option framed inductionHypothesis =>
      obtain ⟨slots, rfl⟩ : ∃ fewer, slots = fewer + 1 := by
        rw [List.length_cons] at few
        exact ⟨slots - 1, by omega⟩
      have positive := option.bytes_length_pos
      have bound := inDataLen.toNat_lt
      have bytes :
          option.bytes.length =
            option.head.bytes.length + (len.len option.head).toNat := by
        rw [FramedOption.bytes, List.length_append, option.value_length]
      rw [framedBytes_cons, List.length_append] at ends
      rw [List.length_cons] at few
      have more : i < inDataLen := by
        rw [UInt16.lt_iff_toNat_lt]
        omega
      have advanced :
          (i + (UInt8.ofNat option.head.bytes.length).toUInt16 +
              (len.len option.head).toUInt16).toNat =
            i.toNat + option.bytes.length := by
        rw [counter_toNat (by rw [headBytes_toNat]; omega), headBytes_toNat,
          bytes]
      have rest :=
        @inductionHypothesis slots
          (i + (UInt8.ofNat option.head.bytes.length).toUInt16 +
            (len.len option.head).toUInt16)
          (by omega) (by rw [advanced]; omega)
          (number + delta.delta option.head)
      rw [optionsLoop, if_pos more, framedBytes_cons, FramedOption.bytes,
        List.append_assoc, List.append_assoc, optionHead_bytes,
        outcome_ok_bind]
      dsimp only
      rw [← option.value_length, List.drop_left, rest, outcome_ok_bind]
      rfl

end Loop

/-! ## What comes back -/

/-- The fields of the options behind one with the number `previous`, where each
number is the sum of the deltas up to there. -/
def cumulativeFields : Nat → List OCoapOption → List OptionFields
  | _, [] => []
  | previous, option :: options =>
      { number := previous + option.delta.toNat
        delta := option.delta.toNat
        length := option.len.toNat
        value := option.value.take option.len.toNat } ::
        cumulativeFields (previous + option.delta.toNat) options

/-- Deltas and numbers up to 255 take one byte. -/
theorem number_arithmetic {number : Nat} {delta : UInt16}
    (narrow : number + delta.toNat ≤ 255) :
    delta.toUInt8.toNat = delta.toNat ∧
      UInt8.ofNat number + delta.toUInt8 =
        UInt8.ofNat (number + delta.toNat) ∧
      (UInt8.ofNat (number + delta.toNat)).toNat = number + delta.toNat := by
  refine ⟨?_, ?_, ?_⟩
  · rw [UInt16.toNat_toUInt8]
    omega
  · apply UInt8.toNat_inj.mp
    rw [UInt8.toNat_add, UInt16.toNat_toUInt8, UInt8.toNat_ofNat',
      UInt8.toNat_ofNat']
    omega
  · rw [UInt8.toNat_ofNat']
    omega

theorem parsedOptions_length {delta len : ExtensionDecoder}
    (framed : List (FramedOption len)) (number : UInt8) (after : Bytes) :
    (parsedOptions delta number framed after).length = framed.length := by
  induction framed generalizing number with
  | nil =>
      rfl
  | cons option framed inductionHypothesis =>
      rw [parsedOptions, List.length_cons, List.length_cons,
        inductionHypothesis]

/-- Written options are those that a parser delimits, and say what was
written. -/
theorem writtenOptions_fields {decoder : ExtensionDecoder}
    {options : List OCoapOption} {number : Nat}
    (reads : ReadsWritten decoder) (values : HasValues options)
    (narrow :
      number + (options.map fun option => option.delta.toNat).sum ≤ 255) :
    ∃ framed : List (FramedOption decoder),
      framedBytes framed = optionsWritten options ∧
        framed.length = options.length ∧
        ∀ after,
          (parsedOptions decoder (UInt8.ofNat number) framed after).map
              OCoapOption.fields =
            cumulativeFields number options := by
  induction options generalizing number with
  | nil =>
      exact ⟨[], rfl, rfl, fun _ => rfl⟩
  | cons option options inductionHypothesis =>
      obtain ⟨hasValue, otherValues⟩ := List.forall_mem_cons.mp values
      rw [List.map_cons, List.sum_cons, ← Nat.add_assoc] at narrow
      obtain ⟨sameDelta, sum, sumIs⟩ :=
        @number_arithmetic number option.delta (by omega)
      have deltaIs := reads.delta option.delta option.len.toUInt16
      have lenIs := reads.len option.delta option.len.toUInt16
      rw [UInt8.toUInt8_toUInt16] at lenIs
      obtain ⟨first, isHead, isValue, isBytes⟩ :=
        exists_framed_of_written lenIs hasValue
      obtain ⟨framed, bytes, count, fields⟩ :=
        inductionHypothesis otherValues narrow
      refine ⟨first :: framed, ?_, ?_, ?_⟩
      · rw [framedBytes_cons, isBytes, bytes]
        rfl
      · rw [List.length_cons, List.length_cons, count]
      · intro after
        rw [parsedOptions, List.map_cons, FramedOption.parsed_fields, isHead,
          isValue, deltaIs, sum, fields, sumIs, sameDelta,
          List.length_take_of_le hasValue]
        rfl

/-- E-options that are written are read back: with room for five bytes and the
value of each they are written, and the parser returns the same number of options
with the same deltas, lengths and values, and the sums of the deltas as
numbers. -/
theorem eOptions_restored (options : List OCoapOption) (slots : Nat)
    (few : options.length ≤ 255) (values : HasValues options)
    (narrow : (options.map fun option => option.delta.toNat).sum ≤ 255)
    (room : options.length ≤ slots) :
    ∃ bytes,
      optionsIntoByteString (maximalOptionsLen options) options = .ok bytes ∧
        (bytes.length ≤ 65535 →
          ∀ behind, ∃ stored count,
            oscorePacketOptionsParserInto slots (bytes ++ behind)
                (UInt16.ofNat bytes.length) = .ok (stored, count) ∧
              count.toNat = options.length ∧
              stored.map OCoapOption.fields = cumulativeFields 0 options) := by
  have written :
      optionsIntoByteString (maximalOptionsLen options) options =
        .ok (optionsWritten options) :=
    optionsIntoByteString_eq_ok.mpr
      ⟨values, optionsWritten_length_le values, rfl⟩
  refine ⟨_, written, ?_⟩
  intro short behind
  obtain ⟨framed, bytes, count, fields⟩ :=
    @writtenOptions_fields _ options 0 oscorePacketOptionsField_readsWritten
      values (by omega)
  have parsed :=
    @optionsLoop_framed oscorePacketOptionsField oscorePacketOptionsField slots
      (UInt16.ofNat (optionsWritten options).length) 0 framed
      (by omega)
      (by
        rw [bytes, UInt16.toNat_ofNat_of_lt' (by
          change _ < 65536
          omega)]
        exact (Nat.zero_add _).symm)
      0 behind
  rw [bytes] at parsed
  refine
    ⟨parsedOptions oscorePacketOptionsField 0 framed behind,
      UInt8.ofNat options.length, ?_, ?_, fields behind⟩
  · unfold oscorePacketOptionsParserInto
    rw [parsed, outcome_ok_bind, parsedOptions_length, count]
  · rw [UInt8.toNat_ofNat']
    omega

/-- Two options, the first with two extension bytes for its delta and one for
its length. -/
def twoOptions : List OCoapOption :=
  [ { delta := 243, len := 13, value := List.replicate 13 0x61
      optionNumber := 243 },
    { delta := 12, len := 0, value := [], optionNumber := 255 } ]

theorem eOptions_restored_two :
    ∃ bytes stored,
      optionsIntoByteString (maximalOptionsLen twoOptions) twoOptions =
          .ok bytes ∧
        oscorePacketOptionsParserInto 2 bytes (UInt16.ofNat bytes.length) =
          .ok (stored, 2) ∧
        stored.map OCoapOption.fields =
          [⟨243, 243, 13, List.replicate 13 0x61⟩, ⟨255, 12, 0, []⟩] := by
  have values : HasValues twoOptions :=
    List.forall_mem_cons.mpr
      ⟨by decide, List.forall_mem_singleton.mpr (by decide)⟩
  obtain ⟨bytes, written, back⟩ :=
    eOptions_restored twoOptions 2 (by decide) values (by decide) (by decide)
  have isBytes := (optionsIntoByteString_eq_ok.mp written).2.2
  have short : bytes.length ≤ 65535 := by
    rw [isBytes]
    decide
  obtain ⟨stored, count, parsed, counted, fields⟩ := back short []
  have isTwo : count = 2 := UInt8.toNat_inj.mp counted
  rw [List.append_nil, isTwo] at parsed
  exact ⟨bytes, stored, written, parsed, fields⟩

end UoscoreUedhoc.Oscore

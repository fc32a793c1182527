import UoscoreUedhoc.Oscore.MarkedRegion
import UoscoreUedhoc.Oscore.OuterPacket

/-!
# Parsing written options

`options_into_byte_string` adds 13 and 269 to an extended delta or length where
the format subtracts them.  `oscore_packet_options_parser` makes the opposite
mistake, and so does `buf2options` for deltas: both read the written deltas
back, whatever the format says of them.
-/

namespace UoscoreUedhoc.Oscore

open UoscoreUedhoc
open UoscoreUedhoc.Coap

/-! ## Written heads -/

theorem extendedNibble_lt (value : UInt16) : extendedNibble value < 15 := by
  unfold extendedNibble
  by_cases small : value < 13
  · rw [if_pos small]
    rw [UInt16.lt_iff_toNat_lt] at small
    rw [UInt8.lt_iff_toNat_lt, UInt16.toNat_toUInt8]
    simp only [UInt16.reduceToNat, UInt8.reduceToNat] at small ⊢
    omega
  · rw [if_neg small]
    split
    · decide
    · decide

theorem extendedBytes_length (value : UInt16) :
    (extendedBytes value).length = extensionLength (extendedNibble value) := by
  unfold extendedBytes extendedNibble
  by_cases small : value < 13
  · rw [if_pos small, if_pos small]
    have nibble : value.toUInt8 < 13 := by
      rw [UInt16.lt_iff_toNat_lt] at small
      rw [UInt8.lt_iff_toNat_lt, UInt16.toNat_toUInt8]
      simp only [UInt16.reduceToNat, UInt8.reduceToNat] at small ⊢
      omega
    have notThirteen : value.toUInt8 ≠ 13 := by
      intro same
      rw [same] at nibble
      exact absurd nibble (by decide)
    have notFourteen : value.toUInt8 ≠ 14 := by
      intro same
      rw [same] at nibble
      exact absurd nibble (by decide)
    unfold extensionLength
    rw [if_neg notThirteen, if_neg notFourteen]
    rfl
  · rw [if_neg small, if_neg small]
    by_cases medium : value < 243
    · rw [if_pos medium, if_pos medium]
      rfl
    · rw [if_neg medium, if_neg medium]
      rfl

/-- The bytes in front of a written option value, as a head of the format. -/
def writtenHead (delta len : UInt16) : EncodedHead where
  first := joinNibbles (extendedNibble delta) (extendedNibble len)
  deltaExtension := extendedBytes delta
  lenExtension := extendedBytes len
  deltaNibble_lt := by
    rw [(nibbles_joinNibbles (extendedNibble_lt delta)
      (extendedNibble_lt len)).1]
    exact extendedNibble_lt delta
  lenNibble_lt := by
    rw [(nibbles_joinNibbles (extendedNibble_lt delta)
      (extendedNibble_lt len)).2]
    exact extendedNibble_lt len
  deltaExtension_length := by
    rw [(nibbles_joinNibbles (extendedNibble_lt delta)
      (extendedNibble_lt len)).1]
    exact extendedBytes_length delta
  lenExtension_length := by
    rw [(nibbles_joinNibbles (extendedNibble_lt delta)
      (extendedNibble_lt len)).2]
    exact extendedBytes_length len

theorem writtenHead_nibbles (delta len : UInt16) :
    deltaNibble (writtenHead delta len).first = extendedNibble delta ∧
      lenNibble (writtenHead delta len).first = extendedNibble len :=
  nibbles_joinNibbles (extendedNibble_lt delta) (extendedNibble_lt len)

/-! ## Reading them back -/

/-- The decoder undoes the offsets that the writer adds. -/
structure ReadsWritten (decoder : ExtensionDecoder) : Prop where
  one : ∀ value : UInt16, decoder.one (value + 13).toUInt8 = value.toUInt8
  two : ∀ value : UInt16,
    decoder.two (((value + 269) &&& 0xFF00) >>> 8).toUInt8
      ((value + 269) &&& 0x00FF).toUInt8 = value.toUInt8

theorem ReadsWritten.decode {decoder : ExtensionDecoder}
    (reads : ReadsWritten decoder) (value : UInt16) :
    decoder.decode (extendedNibble value) (extendedBytes value) =
      value.toUInt8 := by
  unfold extendedNibble extendedBytes
  by_cases small : value < 13
  · rw [if_pos small, if_pos small]
    rfl
  · rw [if_neg small, if_neg small]
    by_cases medium : value < 243
    · rw [if_pos medium, if_pos medium]
      exact reads.one value
    · rw [if_neg medium, if_neg medium]
      exact reads.two value

theorem ReadsWritten.delta {decoder : ExtensionDecoder}
    (reads : ReadsWritten decoder) (delta len : UInt16) :
    decoder.delta (writtenHead delta len) = delta.toUInt8 := by
  unfold ExtensionDecoder.delta
  rw [(writtenHead_nibbles delta len).1]
  exact reads.decode delta

theorem ReadsWritten.len {decoder : ExtensionDecoder}
    (reads : ReadsWritten decoder) (delta len : UInt16) :
    decoder.len (writtenHead delta len) = len.toUInt8 := by
  unfold ExtensionDecoder.len
  rw [(writtenHead_nibbles delta len).2]
  exact reads.decode len

/-- A length without extension bytes is read as it is. -/
theorem shortLength_read (decoder : ExtensionDecoder) (delta : UInt16)
    {len : UInt8} (short : len.toNat < 13) :
    decoder.len (writtenHead delta len.toUInt16) = len := by
  have small : len.toUInt16 < 13 := by
    rw [UInt16.lt_iff_toNat_lt, UInt8.toNat_toUInt16]
    exact short
  unfold ExtensionDecoder.len
  rw [(writtenHead_nibbles delta len.toUInt16).2]
  change decoder.decode (extendedNibble len.toUInt16)
    (extendedBytes len.toUInt16) = len
  unfold extendedNibble extendedBytes
  rw [if_pos small, if_pos small, UInt8.toUInt8_toUInt16]
  rfl

/-- The second of two written extension bytes. -/
theorem lowByte_written (value : UInt16) :
    ((value + 269) &&& 0x00FF).toUInt8 = value.toUInt8 + 13 := by
  have mask : (0x00FF : UInt16).toUInt8 = -1 := rfl
  rw [UInt16.toUInt8_and, mask, UInt8.and_neg_one, UInt16.toUInt8_add]
  rfl

theorem buf2optionsDelta_readsWritten : ReadsWritten buf2optionsDelta where
  one value := by
    change (value + 13).toUInt8 - 13 = value.toUInt8
    rw [UInt16.toUInt8_add]
    exact UInt8.add_sub_cancel _ _
  two value := by
    rw [lowByte_written]
    change
      (_ ||| ((value.toUInt8 + 13).toUInt32 - 269)).toUInt8 = value.toUInt8
    rw [UInt32.toUInt8_or, toUInt8_shiftLeft_eight, UInt32.toUInt8_sub,
      UInt8.zero_or, UInt8.toUInt8_toUInt32]
    exact UInt8.add_sub_cancel _ _

theorem oscorePacketOptionsField_readsWritten :
    ReadsWritten oscorePacketOptionsField where
  one value := by
    change (value + 13).toUInt8 - 13 = value.toUInt8
    rw [UInt16.toUInt8_add]
    exact UInt8.add_sub_cancel _ _
  two value := by
    rw [lowByte_written]
    change
      ((_ ||| (value.toUInt8 + 13).toUInt32) - 269).toUInt8 = value.toUInt8
    rw [UInt32.toUInt8_sub, UInt32.toUInt8_or, toUInt8_shiftLeft_eight,
      UInt8.zero_or, UInt8.toUInt8_toUInt32]
    exact UInt8.add_sub_cancel _ _

/-! ## Written options -/

theorem FramedOption.parsed_content {delta len : ExtensionDecoder}
    (option : FramedOption len) (number : UInt8) (after : Bytes) :
    (option.parsed delta number after).content =
      { number := number + delta.delta option.head
        len := len.len option.head
        value := option.value } := by
  have taken :
      (if len.len option.head = 0 then [] else option.value ++ after).take
        (len.len option.head).toNat = option.value := by
    by_cases empty : len.len option.head = 0
    · have noValue := option.value_length
      rw [empty] at noValue
      rw [List.eq_nil_of_length_eq_zero noValue, if_pos empty,
        List.take_nil]
    · rw [if_neg empty, ← option.value_length, List.take_left]
  unfold OCoapOption.content FramedOption.parsed
  simp only [taken]

/-- A written option as a parser delimits it that reads its length back. -/
theorem exists_framed_of_written {len : ExtensionDecoder}
    {option : OCoapOption}
    (lenIs :
      len.len (writtenHead option.delta option.len.toUInt16) = option.len)
    (hasValue : option.len.toNat ≤ option.value.length) :
    ∃ framed : FramedOption len,
      framed.head = writtenHead option.delta option.len.toUInt16 ∧
        framed.value = option.value.take option.len.toNat ∧
        framed.bytes = optionWritten option := by
  have valueLength :
      (option.value.take option.len.toNat).length =
        (len.len (writtenHead option.delta option.len.toUInt16)).toNat := by
    rw [lenIs, List.length_take_of_le hasValue]
  exact ⟨⟨_, _, valueLength⟩, rfl, rfl, rfl⟩

/-- The parsed options of written ones say what was written. -/
structure ReadsBack (delta len : ExtensionDecoder) (number : UInt8)
    (options : List OCoapOption) (framed : List (FramedOption len)) :
    Prop where
  bytes : framedBytes framed = optionsWritten options
  count : framed.length = options.length
  content : ∀ after,
    (parsedOptions delta number framed after).map OCoapOption.content =
      options.map OCoapOption.content

theorem writtenOptions_framed {delta len : ExtensionDecoder}
    {options : List OCoapOption} {number : UInt8}
    (reads : ReadsWritten delta)
    (lengths : ∀ option ∈ options,
      len.len (writtenHead option.delta option.len.toUInt16) = option.len)
    (values : HasValues options) (numbered : Numbered number options) :
    ∃ framed, ReadsBack delta len number options framed := by
  induction options generalizing number with
  | nil =>
      exact ⟨[], rfl, rfl, fun after => rfl⟩
  | cons option options inductionHypothesis =>
      obtain ⟨isNumber, rest⟩ := numbered
      obtain ⟨hasValue, otherValues⟩ := List.forall_mem_cons.mp values
      obtain ⟨lenIs, otherLengths⟩ := List.forall_mem_cons.mp lengths
      have deltaIs :=
        reads.delta option.delta option.len.toUInt16
      obtain ⟨framed, back⟩ :=
        inductionHypothesis otherLengths otherValues rest
      obtain ⟨first, isHead, isValue, isBytes⟩ :=
        exists_framed_of_written lenIs hasValue
      refine ⟨first :: framed, ?_, ?_, ?_⟩
      · rw [framedBytes_cons, back.bytes, isBytes]
        rfl
      · rw [List.length_cons, List.length_cons, back.count]
      · intro after
        rw [parsedOptions, List.map_cons, List.map_cons,
          FramedOption.parsed_content, isHead, isValue, deltaIs, ← isNumber,
          back.content, lenIs]
        rfl

theorem parsedOptions_hasValues {delta len : ExtensionDecoder}
    (framed : List (FramedOption len)) (number : UInt8) (after : Bytes) :
    HasValues (parsedOptions delta number framed after) := by
  induction framed generalizing number with
  | nil =>
      intro option member
      cases member
  | cons option framed inductionHypothesis =>
      refine List.forall_mem_cons.mpr ⟨?_, inductionHypothesis _⟩
      unfold FramedOption.parsed
      dsimp only
      rw [← option.value_length]
      by_cases empty : len.len option.head = 0
      · have noValue := option.value_length
        rw [empty] at noValue
        rw [noValue]
        exact Nat.zero_le _
      · rw [if_neg empty, List.length_append]
        exact Nat.le_add_right _ _

/-- Written options are read again in front of a payload. -/
theorem writtenOptions_walked {delta len : ExtensionDecoder}
    {options : List OCoapOption} {slots : Nat} {payload : Bytes}
    (reads : ReadsWritten delta)
    (lengths : ∀ option ∈ options,
      len.len (writtenHead option.delta option.len.toUInt16) = option.len)
    (values : HasValues options) (numbered : Numbered 0 options)
    (few : options.length ≤ slots) (room : slots * maxOptionBytes < 2 ^ 16)
    (unmarked : Unmarked (optionsWritten options) payload) :
    ∃ stored,
      optionsWalk delta len slots
          (((optionsWritten options ++ markedPayload payload).takeWhile
            (· ≠ 0xFF)).length % 2 ^ 16) 0
          (optionsWritten options ++ markedPayload payload) = .ok stored ∧
        stored.map OCoapOption.content = options.map OCoapOption.content ∧
        HasValues stored := by
  obtain ⟨framed, back⟩ :=
    writtenOptions_framed reads lengths values numbered
  have walked :=
    @framedRegion_walked delta len framed slots payload
      (by rw [back.count]; exact few) room
      (by rw [back.bytes]; exact unmarked) 0
  rw [back.bytes] at walked
  exact ⟨_, walked, back.content _, parsedOptions_hasValues framed 0 _⟩

/-! ## The marker among written bytes -/

theorem marker_mem_extendedBytes {value : UInt16}
    (bound : value.toNat ≤ 255) : 0xFF ∈ extendedBytes value ↔ value = 242 := by
  have all :
      ∀ number < 256,
        (0xFF ∈ extendedBytes (UInt16.ofNat number) ↔
          UInt16.ofNat number = 242) := by
    decide +kernel
  have found := all value.toNat (by omega)
  rwa [UInt16.ofNat_toNat] at found

theorem marker_mem_optionHeader {option : OCoapOption}
    (bound : option.delta.toNat ≤ 255) :
    0xFF ∈ optionHeader option ↔ option.delta = 242 ∨ option.len = 242 := by
  have first := (writtenHead option.delta option.len.toUInt16).deltaNibble_lt
  have notFirst :
      (0xFF : UInt8) ≠
        (extendedNibble option.delta <<< 4) |||
          extendedNibble option.len.toUInt16 := by
    intro same
    change
      deltaNibble ((extendedNibble option.delta <<< 4) |||
        extendedNibble option.len.toUInt16) < 15 at first
    rw [← same] at first
    exact absurd first (by decide)
  have lenBound := option.len.toNat_lt
  have isLen : option.len.toUInt16 = 242 ↔ option.len = 242 := by
    constructor
    · intro same
      have narrowed := congrArg UInt16.toUInt8 same
      rw [UInt8.toUInt8_toUInt16] at narrowed
      exact narrowed
    · intro same
      rw [same]
      rfl
  unfold optionHeader
  rw [List.mem_cons, List.mem_append, marker_mem_extendedBytes bound,
    marker_mem_extendedBytes
      (by rw [UInt8.toNat_toUInt16]; omega),
    isLen]
  constructor
  · intro member
    exact member.resolve_left notFirst
  · exact Or.inr

/-- An option is written without the marker. -/
def IsClean (option : OCoapOption) : Prop :=
  option.delta ≠ 242 ∧ option.len ≠ 242 ∧
    0xFF ∉ option.value.take option.len.toNat

instance (option : OCoapOption) : Decidable (IsClean option) :=
  inferInstanceAs
    (Decidable
      (option.delta ≠ 242 ∧ option.len ≠ 242 ∧
        0xFF ∉ option.value.take option.len.toNat))

theorem marker_not_mem_optionWritten {option : OCoapOption}
    (bound : option.delta.toNat ≤ 255) :
    0xFF ∉ optionWritten option ↔ IsClean option := by
  unfold optionWritten IsClean
  rw [List.mem_append, marker_mem_optionHeader bound, not_or, not_or,
    and_assoc]

theorem marker_not_mem_optionsWritten {options : List OCoapOption}
    (bounds : ∀ option ∈ options, option.delta.toNat ≤ 255) :
    0xFF ∉ optionsWritten options ↔ ∀ option ∈ options, IsClean option := by
  unfold optionsWritten
  rw [List.mem_flatten]
  constructor
  · intro clean option member
    apply (marker_not_mem_optionWritten (bounds option member)).mp
    intro marker
    exact clean ⟨_, List.mem_map_of_mem member, marker⟩
  · intro clean marked
    obtain ⟨bytes, isWritten, marker⟩ := marked
    obtain ⟨option, member, rfl⟩ := List.mem_map.mp isWritten
    exact
      (marker_not_mem_optionWritten (bounds option member)).mpr
        (clean option member) marker

/-- At most the last byte of a written option is the marker. -/
def IsCleanBefore (option : OCoapOption) : Prop :=
  option.len = 0 ∨
    (option.delta ≠ 242 ∧ option.len ≠ 242 ∧
      0xFF ∉ (option.value.take option.len.toNat).dropLast)

theorem marker_not_mem_dropLast {option : OCoapOption}
    (bound : option.delta.toNat ≤ 255)
    (hasValue : option.len.toNat ≤ option.value.length) :
    0xFF ∉ (optionWritten option).dropLast ↔ IsCleanBefore option := by
  unfold optionWritten IsCleanBefore
  by_cases none : option.len = 0
  · have all :
        ∀ number < 256,
          0xFF ∉
            (((extendedNibble (UInt16.ofNat number) <<< 4) |||
                extendedNibble 0) ::
              (extendedBytes (UInt16.ofNat number) ++
                extendedBytes 0)).dropLast := by
      decide +kernel
    have clean := all option.delta.toNat (by omega)
    rw [UInt16.ofNat_toNat] at clean
    have header :
        optionHeader option =
          ((extendedNibble option.delta <<< 4) ||| extendedNibble 0) ::
            (extendedBytes option.delta ++ extendedBytes 0) := by
      unfold optionHeader
      rw [none]
      rfl
    rw [none, header]
    apply iff_of_true
    · change
        0xFF ∉ ((_ :: (extendedBytes option.delta ++ extendedBytes 0)) ++
          option.value.take 0).dropLast
      rw [List.take_zero, List.append_nil]
      exact clean
    · exact Or.inl rfl
  · have some : option.value.take option.len.toNat ≠ [] := by
      intro empty
      have length := List.length_take_of_le hasValue
      rw [empty, List.length_nil] at length
      exact none (UInt8.toNat_inj.mp length.symm)
    rw [List.dropLast_append_of_ne_nil some, List.mem_append,
      marker_mem_optionHeader bound, not_or, not_or, and_assoc]
    constructor
    · intro clean
      exact Or.inr clean
    · intro clean
      exact clean.resolve_left none

/-- The condition on options and payload under which nothing but the payload
marker is taken for it: all options are clean, or there is no payload and at most
the last byte of the last option is the marker. -/
def UnmarkedOptions (options : List OCoapOption) (payload : Bytes) : Prop :=
  (∀ option ∈ options, IsClean option) ∨
    (payload = [] ∧
      ∃ front last, options = front ++ [last] ∧
        (∀ option ∈ front, IsClean option) ∧ IsCleanBefore last)

theorem optionsWritten_concat (front : List OCoapOption) (last : OCoapOption) :
    optionsWritten (front ++ [last]) =
      optionsWritten front ++ optionWritten last := by
  simp [optionsWritten]

theorem optionWritten_ne_nil (option : OCoapOption) :
    optionWritten option ≠ [] := by
  unfold optionWritten optionHeader
  exact List.cons_ne_nil _ _

theorem unmarked_written_iff {options : List OCoapOption} {payload : Bytes}
    (bounds : ∀ option ∈ options, option.delta.toNat ≤ 255)
    (values : HasValues options) :
    Unmarked (optionsWritten options) payload ↔
      UnmarkedOptions options payload := by
  unfold Unmarked UnmarkedOptions
  rw [marker_not_mem_optionsWritten bounds]
  apply or_congr_right'
  intro notClean
  apply and_congr_right
  intro _
  rcases List.eq_nil_or_concat options with none | ⟨front, last, isConcat⟩
  · rw [none] at notClean
    exact
      absurd (fun option member => absurd member List.not_mem_nil) notClean
  · rw [List.concat_eq_append] at isConcat
    subst isConcat
    have lastBound := bounds last (by simp)
    have lastValue := values last (by simp)
    have frontBounds : ∀ option ∈ front, option.delta.toNat ≤ 255 :=
      fun option member => bounds option (List.mem_append_left _ member)
    rw [optionsWritten_concat,
      List.dropLast_append_of_ne_nil (optionWritten_ne_nil last),
      List.mem_append, not_or, marker_not_mem_optionsWritten frontBounds,
      marker_not_mem_dropLast lastBound lastValue]
    constructor
    · intro clean
      exact ⟨front, last, rfl, clean.1, clean.2⟩
    · intro described
      obtain ⟨otherFront, otherLast, same, cleanFront, cleanLast⟩ := described
      obtain ⟨rfl, lasts⟩ := List.append_inj' same rfl
      obtain ⟨rfl, _⟩ := List.cons.inj lasts
      exact ⟨cleanFront, cleanLast⟩

end UoscoreUedhoc.Oscore

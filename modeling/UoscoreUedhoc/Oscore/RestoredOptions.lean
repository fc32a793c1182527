import UoscoreUedhoc.Oscore.InnerPlaintext
import UoscoreUedhoc.Oscore.Reencoding

/-!
# Options that are restored

A message is divided into outer and inner options, which are merged and written
again on the other side.  The options come back as they were where their heads
survive reading and writing and the options outside class E have numbers below
that of the OSCORE option.
-/

namespace UoscoreUedhoc.Oscore

open UoscoreUedhoc
open UoscoreUedhoc.Coap
open UoscoreUedhoc.CursorMerge

/-! ## The options of a message as they are read -/

/-- What `buf2options` makes of options behind one with the number `previous`,
for which it has computed `number`. -/
def parsedAs : UInt8 → Nat → List MessageOption → List OCoapOption
  | _, _, [] => []
  | number, previous, option :: options =>
      let delta := decodedNumber (-26) (option.number - previous)
      { delta := delta.toUInt16
        len := UInt8.ofNat option.value.length
        value := option.value
        optionNumber := number + delta } ::
        parsedAs (number + delta) option.number options

def messageOptions (message : Message) : List OCoapOption :=
  parsedAs 0 0 message.options

theorem parsedAs_narrow (number : UInt8) (previous : Nat)
    (options : List MessageOption) :
    ∀ option ∈ parsedAs number previous options,
      option.delta.toUInt8.toUInt16 = option.delta := by
  induction options generalizing number previous with
  | nil =>
      intro option member
      cases member
  | cons first options inductionHypothesis =>
      intro option member
      rcases List.mem_cons.mp member with rfl | later
      · dsimp only
        rw [UInt8.toUInt8_toUInt16]
      · exact inductionHypothesis _ _ option later

/-- An option without the bytes behind its value. -/
def OCoapOption.trimmed (option : OCoapOption) : OCoapOption :=
  { option with value := option.value.take option.len.toNat }

theorem OCoapOption.trimmed_content (option : OCoapOption) :
    option.trimmed.content = option.content := by
  unfold OCoapOption.trimmed OCoapOption.content
  rw [List.take_take, Nat.min_self]

theorem optionsWritten_trimmed (options : List OCoapOption) :
    optionsWritten (options.map OCoapOption.trimmed) =
      optionsWritten options := by
  unfold optionsWritten
  rw [List.map_map]
  congr 1
  apply List.map_congr_left
  intro option _
  have same := congrArg OptionContent.value option.trimmed_content
  exact congrArg (optionHeader option ++ ·) same

theorem euOptionsExtract_trimmed (number eDeltaSum uDeltaSum : UInt8)
    (options : List OCoapOption) :
    euOptionsExtract number eDeltaSum uDeltaSum
        (options.map OCoapOption.trimmed) =
      let eu := euOptionsExtract number eDeltaSum uDeltaSum options
      { eOptions := eu.eOptions.map OCoapOption.trimmed
        eOptionsLen := eu.eOptionsLen
        uOptions := eu.uOptions.map OCoapOption.trimmed } := by
  induction options generalizing number eDeltaSum uDeltaSum with
  | nil =>
      rfl
  | cons option options inductionHypothesis =>
      rw [List.map_cons]
      unfold euOptionsExtract
      simp only [OCoapOption.trimmed, inductionHypothesis]
      cases isClassE (number + option.delta.toUInt8).toUInt16 with
      | true =>
          rfl
      | false =>
          rfl

/-- A framed option is read with its own value. -/
theorem FramedOption.parsed_trimmed {delta len : ExtensionDecoder}
    (option : FramedOption len) (number : UInt8) (after : Bytes) :
    (option.parsed delta number after).trimmed =
      { delta := (delta.delta option.head).toUInt16
        len := len.len option.head
        value := option.value
        optionNumber := number + delta.delta option.head } := by
  have value :=
    congrArg OptionContent.value
      (@FramedOption.parsed_content delta len option number after)
  change (option.parsed delta number after).value.take _ = option.value at value
  unfold OCoapOption.trimmed
  rw [value]
  rfl

theorem parsedOptions_trimmed {options : List MessageOption} {previous : Nat}
    (small :
      ∀ option ∈ Coap.encodeOptions previous options, option.head.length < 256)
    (number : UInt8) (after : Bytes) :
    (parsedOptions buf2optionsDelta number
          (framedOptions (Coap.encodeOptions previous options) small)
          after).map OCoapOption.trimmed =
      parsedAs number previous options := by
  induction options generalizing previous number with
  | nil =>
      rfl
  | cons option options inductionHypothesis =>
      have rest :=
        @inductionHypothesis option.number
          (fun other member => small other (List.mem_cons_of_mem _ member))
          (number + decodedNumber (-26) (option.number - previous))
      have isDelta :
          (EncodedOption.encode (option.number - previous) option.value
              option.value_length_lt).head.delta =
            option.number - previous := by
        have bound := option.number_lt
        apply EncodedHead.delta_encode
        unfold valueBound
        omega
      have isLength :
          (EncodedOption.encode (option.number - previous) option.value
              option.value_length_lt).head.length = option.value.length :=
        EncodedHead.length_encode option.value_length_lt
      unfold framedOptions at rest ⊢
      simp only [Coap.encodeOptions, List.pmap_cons, parsedOptions,
        List.map_cons, FramedOption.parsed_trimmed, framedOption,
        buf2optionsDelta_delta, buf2optionsLen_len, isDelta, isLength, rest,
        parsedAs]
      rfl

/-! ## Messages that come through -/

/-- A delta and a length that survive reading and writing, also where the delta
takes two extension bytes. -/
def IsRewritten (head : EncodedHead) : Prop :=
  (head.delta < 13 ∨ (39 ≤ head.delta ∧ head.delta < 269) ∨
      (781 ≤ head.delta ∧ head.delta < 794)) ∧
    head.length < 13

instance (head : EncodedHead) : Decidable (IsRewritten head) :=
  inferInstanceAs
    (Decidable
      ((head.delta < 13 ∨ (39 ≤ head.delta ∧ head.delta < 269) ∨
          (781 ≤ head.delta ∧ head.delta < 794)) ∧
        head.length < 13))

theorem IsRewritten.written {head : EncodedHead} (rewritten : IsRewritten head) :
    writtenHead (buf2optionsDelta.delta head).toUInt16
        (buf2optionsLen.len head).toUInt16 = head := by
  obtain ⟨delta, length⟩ := rewritten
  have low :
      ∀ delta < 269, delta < 13 ∨ 39 ≤ delta →
        WritesFormat (decodedNumber (-26) delta).toUInt16 delta := by
    decide +kernel
  have high :
      ∀ above < 13,
        WritesFormat (decodedNumber (-26) (781 + above)).toUInt16
          (781 + above) := by
    decide +kernel
  have lengths := @readLength_writesFormat_iff head.length (by omega)
  rw [writtenHead_eq_iff, buf2optionsDelta_delta, buf2optionsLen_len]
  refine ⟨?_, lengths.mpr length⟩
  rcases delta with small | medium | large
  · exact low head.delta (by omega) (Or.inl small)
  · exact low head.delta medium.2 (Or.inr medium.1)
  · have found := high (head.delta - 781) (by omega)
    rwa [Nat.add_sub_cancel' large.1] at found

/-- The options of class E as they stand in the plaintext. -/
def innerWritten (message : Message) : Bytes :=
  optionsWritten (euOptionsExtract 0 0 0 (messageOptions message)).eOptions

/-- Heads and numbers survive, no byte `0xFF` stands in front of a payload
marker, all options outside class E come before the OSCORE option, the bytes of
the others are counted right, and together they have room. -/
structure ComesThrough (message : Message) : Prop where
  count : message.options.length ≤ maxOptionCount
  heads :
    ∀ encoded ∈ Coap.encodeOptions 0 message.options,
      IsRewritten encoded.head
  unmarked :
    Unmarked (optionBytes (Coap.encodeOptions 0 message.options))
      message.payload
  ascending :
    (messageOptions message).Pairwise fun option later =>
      option.optionNumber ≤ later.optionNumber
  outer :
    ∀ option ∈ notClassE (messageOptions message),
      option.optionNumber < coapOptionOscore ∧ 0xFF ∉ option.value
  inner : Unmarked (innerWritten message) message.payload
  counted :
    (innerWritten message).length =
      (euOptionsExtract 0 0 0 (messageOptions message)).eOptionsLen.toNat
  room : messageOptionsRoom message ≤ maxCoapOptionsLen

/-- The parser has found the options of the message. -/
structure ReadsMessage (message : Message) (stored : List OCoapOption) :
    Prop where
  options : stored.map OCoapOption.trimmed = messageOptions message
  numbered : Numbered 0 stored
  written :
    optionsWritten stored =
      optionBytes (Coap.encodeOptions 0 message.options)
  room : maximalOptionsLen stored = messageOptionsRoom message
  payload :
    ((bodyBytes message).dropWhile (· ≠ 0xFF)).tail = message.payload

section Read

variable {message : Message} {stored : List OCoapOption}

theorem parsedAs_len_lt {bound previous : Nat} {options : List MessageOption}
    (small : ∀ encoded ∈ Coap.encodeOptions previous options,
      encoded.head.length < bound) (number : UInt8) :
    ∀ option ∈ parsedAs number previous options, option.len.toNat < bound := by
  induction options generalizing previous number with
  | nil =>
      intro option member
      cases member
  | cons first options inductionHypothesis =>
      intro option member
      rcases List.mem_cons.mp member with rfl | later
      · have short := small _ List.mem_cons_self
        have isLength :
            (EncodedOption.encode (first.number - previous) first.value
                first.value_length_lt).head.length = first.value.length :=
          EncodedHead.length_encode first.value_length_lt
        rw [isLength] at short
        dsimp only
        rw [UInt8.toNat_ofNat']
        exact Nat.lt_of_le_of_lt (Nat.mod_le _ _) short
      · exact
          @inductionHypothesis first.number
            (fun encoded isEncoded =>
              small encoded (List.mem_cons_of_mem _ isEncoded))
            _ option later

theorem ComesThrough.reads (through : ComesThrough message)
    (walked :
      optionsWalk buf2optionsDelta buf2optionsLen maxOptionCount
          (regionLength message) 0 (bodyBytes message) = .ok stored) :
    ReadsMessage message stored := by
  have small :
      ∀ option ∈ Coap.encodeOptions 0 message.options,
        option.head.length < 256 := by
    intro option member
    have short := (through.heads option member).2
    omega
  obtain ⟨framed, payload⟩ :=
    region_walked through.count small through.unmarked
  have numbered := optionsWalk_numbered walked
  unfold regionLength at walked
  rw [walked, Except.ok.injEq] at framed
  subst framed
  refine ⟨parsedOptions_trimmed small 0 _, numbered, ?_, ?_, payload⟩
  · rw [← framedBytes_framedOptions _ small]
    apply parsedOptions_written_of
    intro option member
    obtain ⟨encoded, isEncoded, rfl⟩ := List.mem_pmap.mp member
    exact (through.heads encoded isEncoded).written
  · rw [maximalOptionsLen_parsed, framedOptions_room]
    rfl

theorem ReadsMessage.ascending (reads : ReadsMessage message stored)
    (through : ComesThrough message) :
    stored.Pairwise fun option later =>
      option.optionNumber ≤ later.optionNumber := by
  have trimmed := through.ascending
  rw [← reads.options, List.pairwise_map] at trimmed
  exact trimmed

theorem ReadsMessage.narrow (reads : ReadsMessage message stored) :
    ∀ option ∈ stored, option.delta.toUInt8.toUInt16 = option.delta := by
  intro option member
  have trimmed : option.trimmed ∈ messageOptions message := by
    rw [← reads.options]
    exact List.mem_map_of_mem member
  exact parsedAs_narrow 0 0 message.options option.trimmed trimmed

theorem ReadsMessage.len_lt (reads : ReadsMessage message stored)
    (through : ComesThrough message) :
    ∀ option ∈ stored, option.len.toNat < 13 := by
  intro option member
  have trimmed : option.trimmed ∈ messageOptions message := by
    rw [← reads.options]
    exact List.mem_map_of_mem member
  exact
    parsedAs_len_lt (fun encoded isEncoded =>
      (through.heads encoded isEncoded).2) 0 option.trimmed trimmed

/-- The options outside class E are in front of the OSCORE option and have no
byte that is taken for the payload marker. -/
theorem ReadsMessage.outer (reads : ReadsMessage message stored)
    (through : ComesThrough message) :
    ∀ option ∈ notClassE stored,
      option.optionNumber < coapOptionOscore ∧
        0xFF ∉ option.value.take option.len.toNat := by
  intro option member
  obtain ⟨isStored, notE⟩ := List.mem_filter.mp member
  have trimmed : option.trimmed ∈ notClassE (messageOptions message) := by
    rw [← reads.options]
    exact List.mem_filter.mpr ⟨List.mem_map_of_mem isStored, notE⟩
  exact through.outer option.trimmed trimmed

/-- The options of class E are written as counted. -/
theorem ReadsMessage.inner (reads : ReadsMessage message stored) :
    optionsWritten (euOptionsExtract 0 0 0 stored).eOptions =
        innerWritten message ∧
      (euOptionsExtract 0 0 0 stored).eOptionsLen =
        (euOptionsExtract 0 0 0 (messageOptions message)).eOptionsLen := by
  unfold innerWritten
  rw [← reads.options, euOptionsExtract_trimmed]
  exact ⟨(optionsWritten_trimmed _).symm, rfl⟩

end Read

/-! ## Deltas from numbers -/

/-- A delta between two numbers leads from one to the other. -/
theorem add_numberDelta (number next : UInt8) :
    number + (next.toUInt16 - number.toUInt16).toUInt8 = next := by
  rw [UInt16.toUInt8_sub, UInt8.toUInt8_toUInt16, UInt8.toUInt8_toUInt16,
    UInt8.add_comm, UInt8.sub_add_cancel]

theorem pkgOptions_numbered (number : UInt8) (options : List OCoapOption) :
    Numbered number (pkgOptions number options) := by
  induction options generalizing number with
  | nil =>
      trivial
  | cons option options inductionHypothesis =>
      have next := add_numberDelta number option.optionNumber
      refine ⟨next.symm, ?_⟩
      rw [next]
      exact inductionHypothesis _

theorem withDeltas_eq_pkgOptions (number : UInt8)
    (options : List OCoapOption) :
    withDeltas number.toUInt16 options = pkgOptions number options := by
  induction options generalizing number with
  | nil =>
      rfl
  | cons option options inductionHypothesis =>
      have next := add_numberDelta number option.optionNumber
      have sum :
          number.toUInt16 + (option.optionNumber.toUInt16 - number.toUInt16) =
            option.optionNumber.toUInt16 := by
        rw [UInt16.add_comm, UInt16.sub_add_cancel]
      rw [withDeltas, pkgOptions, next, sum, inductionHypothesis]

/-- Options with ascending numbers get the deltas they have. -/
theorem pkgOptions_eq_self {number : UInt8} {options : List OCoapOption}
    (numbered : Numbered number options)
    (least : ∀ option ∈ options, number ≤ option.optionNumber)
    (ascending :
      options.Pairwise fun option later =>
        option.optionNumber ≤ later.optionNumber)
    (narrow : ∀ option ∈ options,
      option.delta.toUInt8.toUInt16 = option.delta) :
    pkgOptions number options = options := by
  induction options generalizing number with
  | nil =>
      rfl
  | cons option options inductionHypothesis =>
      obtain ⟨isNumber, numberedRest⟩ := numbered
      obtain ⟨isFirst, ascendingRest⟩ := List.pairwise_cons.mp ascending
      obtain ⟨isNarrow, narrowRest⟩ := List.forall_mem_cons.mp narrow
      have above := least option List.mem_cons_self
      have isDelta :
          option.optionNumber.toUInt16 - number.toUInt16 = option.delta := by
        rw [← isNarrow]
        generalize option.delta.toUInt8 = delta at isNumber
        rw [UInt8.le_iff_toNat_le] at above
        have sum := congrArg UInt8.toNat isNumber
        rw [UInt8.toNat_add] at sum
        have numberBound := number.toNat_lt
        have deltaBound := delta.toNat_lt
        apply UInt16.toNat_inj.mp
        rw [UInt16.toNat_sub_of_le, UInt8.toNat_toUInt16,
          UInt8.toNat_toUInt16, UInt8.toNat_toUInt16]
        · omega
        · rw [UInt16.le_iff_toNat_le, UInt8.toNat_toUInt16,
            UInt8.toNat_toUInt16]
          exact above
      rw [pkgOptions, isDelta, ← isNumber,
        inductionHypothesis numberedRest isFirst ascendingRest narrowRest]

/-- Ascending numbers up to a bound have deltas up to it. -/
theorem pkgOptions_delta_le {number : UInt8} {options : List OCoapOption}
    {bound : Nat} (least : ∀ option ∈ options, number ≤ option.optionNumber)
    (ascending :
      options.Pairwise fun option later =>
        option.optionNumber ≤ later.optionNumber)
    (bounded : ∀ option ∈ options, option.optionNumber.toNat ≤ bound) :
    ∀ option ∈ pkgOptions number options, option.delta.toNat ≤ bound := by
  induction options generalizing number with
  | nil =>
      intro option member
      cases member
  | cons first options inductionHypothesis =>
      obtain ⟨isFirst, ascendingRest⟩ := List.pairwise_cons.mp ascending
      obtain ⟨firstBounded, othersBounded⟩ := List.forall_mem_cons.mp bounded
      have above := least first List.mem_cons_self
      have next := add_numberDelta number first.optionNumber
      rw [pkgOptions, next]
      intro option member
      rcases List.mem_cons.mp member with rfl | later
      · rw [UInt8.le_iff_toNat_le] at above
        dsimp only
        rw [UInt16.toNat_sub_of_le, UInt8.toNat_toUInt16,
          UInt8.toNat_toUInt16]
        · omega
        · rw [UInt16.le_iff_toNat_le, UInt8.toNat_toUInt16,
            UInt8.toNat_toUInt16]
          exact above
      · exact
          inductionHypothesis isFirst ascendingRest othersBounded option later

theorem maximalOptionsLen_content {options others : List OCoapOption}
    (same :
      options.map OCoapOption.content = others.map OCoapOption.content) :
    maximalOptionsLen options = maximalOptionsLen others := by
  have lengths :=
    congrArg
      (fun contents : List OptionContent =>
        (contents.map fun content => 5 + content.len.toNat).sum)
      same
  simp only [List.map_map] at lengths
  exact lengths

/-! ## Merged options -/

/-- The other side has the options of both classes. -/
structure DividedInto (stored before inner : List OCoapOption) : Prop where
  isBefore :
    before.map OCoapOption.content =
      (notClassE stored).map OCoapOption.content
  isInner :
    inner.map OCoapOption.content = (classE stored).map OCoapOption.content
  beforeValues : HasValues before
  innerValues : HasValues inner

section Merged

variable {stored before inner : List OCoapOption}

theorem DividedInto.merged_content (divided : DividedInto stored before inner)
    (ascending :
      stored.Pairwise fun option later =>
        option.optionNumber ≤ later.optionNumber) :
    (mergeByKey OCoapOption.optionNumber before inner).map
        OCoapOption.content =
      stored.map OCoapOption.content := by
  have sorted :
      (stored.map OCoapOption.content).Pairwise fun content later =>
        content.number ≤ later.number :=
    List.pairwise_map.mpr ascending
  have whole :=
    mergeByKey_filter OptionContent.number sorted fun number =>
      isClassE number.toUInt16
  rw [List.filter_map, List.filter_map] at whole
  have mapped :=
    @mergeByKey_map _ _ _ OptionContent.number _ OCoapOption.content before
      inner
  rw [divided.isBefore, divided.isInner] at mapped
  exact mapped.trans whole

theorem DividedInto.merged_hasValues
    (divided : DividedInto stored before inner) :
    HasValues (mergeByKey OCoapOption.optionNumber before inner) := by
  intro option member
  have merge :=
    @mergeByKey_perm _ _ _ OCoapOption.optionNumber before inner
  have either := merge.mem_iff.mp member
  rcases List.mem_append.mp either with isBefore | isInner
  · exact divided.beforeValues option isBefore
  · exact divided.innerValues option isInner

/-- The merged options are written as those that were divided. -/
theorem DividedInto.merged_written (divided : DividedInto stored before inner)
    (numbered : Numbered 0 stored)
    (ascending :
      stored.Pairwise fun option later =>
        option.optionNumber ≤ later.optionNumber)
    (narrow : ∀ option ∈ stored,
      option.delta.toUInt8.toUInt16 = option.delta) :
    optionsWritten
        (withDeltas 0 (mergeByKey OCoapOption.optionNumber before inner)) =
      optionsWritten stored := by
  have merged := divided.merged_content ascending
  have same :=
    pkgOptions_eq_self numbered (fun option _ => UInt8.zero_le) ascending
      narrow
  calc
    _ = optionsWritten
          (pkgOptions 0
            (mergeByKey OCoapOption.optionNumber before inner)) :=
        congrArg optionsWritten (withDeltas_eq_pkgOptions 0 _)
    _ = outerWritten 0 (stored.map OCoapOption.content) := by
        rw [optionsWritten_pkgOptions, merged]
    _ = optionsWritten stored := by
        rw [← optionsWritten_pkgOptions, same]

end Merged

end UoscoreUedhoc.Oscore

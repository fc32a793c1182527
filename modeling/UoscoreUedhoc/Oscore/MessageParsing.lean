import UoscoreUedhoc.Coap.Message
import UoscoreUedhoc.Oscore.MarkedRegion

/-!
# Well-formed messages in the outer parser

`buf2options` subtracts the 13 and the 269 of an extended delta instead of
adding them, and `buf2coap` takes the first `0xFF` for the payload marker, also
inside an option value.  So a well-formed message is parsed right exactly when
its deltas are below 13 and its option values have no such byte.
-/

namespace UoscoreUedhoc.Oscore

open UoscoreUedhoc
open UoscoreUedhoc.Coap

/-! ## The fields of options -/

/-- What a message and a packet say about an option. -/
structure OptionFields where
  number : Nat
  delta : Nat
  length : Nat
  value : Bytes
  deriving DecidableEq, Repr

def OCoapOption.fields (option : OCoapOption) : OptionFields where
  number := option.optionNumber.toNat
  delta := option.delta.toNat
  length := option.len.toNat
  value := option.value.take option.len.toNat

/-- The fields of the options behind one with the number `previous`. -/
def messageFields : Nat → List MessageOption → List OptionFields
  | _, [] => []
  | previous, option :: options =>
      { number := option.number
        delta := option.number - previous
        length := option.value.length
        value := option.value } :: messageFields option.number options

/-- The header of a message. -/
def messageHeader (message : Message) : OCoapHeader where
  ver := 1
  type := message.type
  tkl := UInt8.ofNat message.token.length
  code := message.code
  mid := message.mid

/-- The packet has the parts of the message. -/
structure Represents (packet : OCoapPacket) (message : Message) : Prop where
  header : packet.header = messageHeader message
  token :
    ∃ token, packet.token = some token ∧
      token.take message.token.length = message.token
  options :
    ∃ options, packet.options = some options ∧
      options.map OCoapOption.fields = messageFields 0 message.options
  payloadLen : packet.payloadLen = message.payload.length
  payload : packet.payload.take packet.payloadLen = message.payload

/-- The numbers and lengths of the options fit into 8 bits. -/
structure HasByteOptions (message : Message) : Prop where
  count : message.options.length ≤ maxOptionCount
  number : ∀ option ∈ message.options, option.number ≤ 255
  length : ∀ option ∈ message.options, option.value.length ≤ 255

/-- Something follows the token, all deltas are below 13, and no option byte is
`0xFF`, but for the last byte of a message without payload. -/
structure IsPlain (message : Message) : Prop where
  nonempty : message.options ≠ [] ∨ message.payload ≠ []
  delta :
    ∀ option ∈ Coap.encodeOptions 0 message.options, option.head.delta < 13
  unmarked :
    0xFF ∉ optionBytes (Coap.encodeOptions 0 message.options) ∨
      (message.payload = [] ∧
        0xFF ∉ (optionBytes (Coap.encodeOptions 0 message.options)).dropLast)

/-! ## The header -/

theorem firstByte_fields {type : UInt8} {tokenLength : Nat}
    (typeBound : type < 4) (tokenBound : tokenLength ≤ 8) :
    let first := (0x40 : UInt8) ||| (type <<< 4) ||| UInt8.ofNat tokenLength
    (first &&& 0xC0) >>> 6 = 1 ∧ (first &&& 0x30) >>> 4 = type ∧
      first &&& 0x0F = UInt8.ofNat tokenLength := by
  have all :
      ∀ type < 4, ∀ tokenLength < 9,
        let first :=
          (0x40 : UInt8) ||| (UInt8.ofNat type <<< 4) |||
            UInt8.ofNat tokenLength
        (first &&& 0xC0) >>> 6 = 1 ∧
          (first &&& 0x30) >>> 4 = UInt8.ofNat type ∧
          first &&& 0x0F = UInt8.ofNat tokenLength := by
    decide +kernel
  have found :=
    all type.toNat (by simpa [UInt8.lt_iff_toNat_lt] using typeBound)
      tokenLength (by omega)
  simpa only [UInt8.ofNat_toNat] using found

theorem mid_bytes (mid : UInt16) :
    ((mid >>> 8).toUInt8.toUInt16 <<< 8) ||| mid.toUInt8.toUInt16 = mid := by
  have bound := mid.toNat_lt
  have high : mid.toNat / 256 < 256 := by
    omega
  apply UInt16.toNat_inj.mp
  rw [UInt16.toNat_or, UInt16.toNat_shiftLeft, UInt8.toNat_toUInt16,
    UInt8.toNat_toUInt16, UInt16.toNat_toUInt8, UInt16.toNat_toUInt8,
    UInt16.toNat_shiftRight]
  simp only [UInt16.reduceToNat, Nat.reduceMod, Nat.shiftRight_eq_div_pow,
    Nat.reducePow]
  have shiftedSmall : (mid.toNat / 256) <<< 8 < 65536 := by
    rw [Nat.shiftLeft_eq]
    omega
  rw [Nat.mod_eq_of_lt high, Nat.mod_eq_of_lt shiftedSmall,
    ← Nat.shiftLeft_add_eq_or_of_lt (by omega), Nat.shiftLeft_eq]
  omega

theorem parseHeader_message (message : Message) :
    parseHeader message.firstByte message.code
        (message.mid >>> 8).toUInt8 message.mid.toUInt8 =
      messageHeader message := by
  obtain ⟨ver, type, tkl⟩ :=
    firstByte_fields message.type_lt message.token_length_le
  unfold parseHeader messageHeader Message.firstByte
  rw [ver, type, tkl, mid_bytes]

theorem messageHeader_tkl (message : Message) :
    (messageHeader message).tkl.toNat = message.token.length := by
  have short := message.token_length_le
  unfold messageHeader
  rw [UInt8.toNat_ofNat']
  omega

/-! ## The options -/

theorem FramedOption.parsed_fields {delta len : ExtensionDecoder}
    (option : FramedOption len) (number : UInt8) (after : Bytes) :
    (option.parsed delta number after).fields =
      { number := (number + delta.delta option.head).toNat
        delta := (delta.delta option.head).toNat
        length := option.value.length
        value := option.value } := by
  have taken :
      (if len.len option.head = 0 then [] else option.value ++ after).take
        (len.len option.head).toNat = option.value := by
    by_cases empty : len.len option.head = 0
    · have noValue := option.value_length
      rw [empty] at noValue
      rw [List.eq_nil_of_length_eq_zero noValue, if_pos empty,
        List.take_nil]
    · rw [if_neg empty, ← option.value_length, List.take_left]
  unfold OCoapOption.fields FramedOption.parsed
  simp only [taken, UInt8.toNat_toUInt16, option.value_length]

/-- A well-formed option whose length fits into 8 bits. -/
def framedOption (option : EncodedOption) (small : option.head.length < 256) :
    FramedOption buf2optionsLen where
  head := option.head
  value := option.value
  value_length := by
    rw [option.value_length, buf2optionsLen_len, UInt8.toNat_ofNat',
      Nat.mod_eq_of_lt small]

def framedOptions (options : List EncodedOption)
    (small : ∀ option ∈ options, option.head.length < 256) :
    List (FramedOption buf2optionsLen) :=
  options.pmap framedOption small

theorem framedBytes_framedOptions (options : List EncodedOption)
    (small : ∀ option ∈ options, option.head.length < 256) :
    framedBytes (framedOptions options small) = optionBytes options := by
  induction options with
  | nil =>
      rfl
  | cons option options inductionHypothesis =>
      have rest :=
        inductionHypothesis fun other member =>
          small other (List.mem_cons_of_mem _ member)
      unfold framedOptions at rest ⊢
      rw [List.pmap_cons, framedBytes_cons, rest]
      rfl

theorem encodeOptions_lengths_lt {bound : Nat} {options : List MessageOption}
    (small : ∀ option ∈ options, option.value.length < bound)
    (previous : Nat) :
    ∀ option ∈ Coap.encodeOptions previous options, option.head.length < bound := by
  induction options generalizing previous with
  | nil =>
      intro option member
      cases member
  | cons first options inductionHypothesis =>
      intro option member
      rcases List.mem_cons.mp member with rfl | later
      · rw [← EncodedOption.value_length]
        exact small first List.mem_cons_self
      · exact
          inductionHypothesis
            (fun other otherMember =>
              small other (List.mem_cons_of_mem _ otherMember))
            first.number option later

theorem encodeOptions_length (previous : Nat) (options : List MessageOption) :
    (Coap.encodeOptions previous options).length = options.length := by
  induction options generalizing previous with
  | nil =>
      rfl
  | cons option options inductionHypothesis =>
      rw [Coap.encodeOptions, List.length_cons, List.length_cons,
        inductionHypothesis]

/-- Only deltas below 13 are parsed right. -/
theorem decodedNumber_toNat_eq_iff {delta : Nat} (bound : delta ≤ 255) :
    (decodedNumber (-26) delta).toNat = delta ↔ delta < 13 := by
  unfold decodedNumber
  constructor
  · intro same
    by_contra large
    rw [if_neg large, UInt8.toNat_add, UInt8.toNat_ofNat'] at same
    have offset : (-26 : UInt8).toNat = 230 := by
      decide
    omega
  · intro small
    rw [if_pos small, UInt8.toNat_ofNat']
    omega

theorem running_number {previous number : Nat} (above : previous ≤ number)
    (small : number - previous < 13) :
    UInt8.ofNat previous + decodedNumber (-26) (number - previous) =
      UInt8.ofNat number := by
  rw [decodedNumber, if_pos small, ← UInt8.ofNat_add,
    Nat.add_sub_cancel' above]

theorem parsedOptions_fields_iff {options : List MessageOption}
    {previous : Nat} (first : ∀ option ∈ options, previous ≤ option.number)
    (ascending :
      options.Pairwise fun option later => option.number ≤ later.number)
    (numbers : ∀ option ∈ options, option.number ≤ 255)
    (small :
      ∀ option ∈ Coap.encodeOptions previous options, option.head.length < 256)
    (after : Bytes) :
    (parsedOptions buf2optionsDelta (UInt8.ofNat previous)
          (framedOptions (Coap.encodeOptions previous options) small) after).map
          OCoapOption.fields =
        messageFields previous options ↔
      ∀ option ∈ Coap.encodeOptions previous options, option.head.delta < 13 := by
  induction options generalizing previous with
  | nil =>
      simp [Coap.encodeOptions, framedOptions, parsedOptions, messageFields]
  | cons option options inductionHypothesis =>
      have above := first option List.mem_cons_self
      have bound := numbers option List.mem_cons_self
      obtain ⟨isFirst, ascendingRest⟩ := List.pairwise_cons.mp ascending
      have rest :=
        @inductionHypothesis option.number isFirst ascendingRest
          (fun other member => numbers other (List.mem_cons_of_mem _ member))
          (fun other member => small other (List.mem_cons_of_mem _ member))
      have deltaIs :
          (EncodedOption.encode (option.number - previous) option.value
              option.value_length_lt).head.delta =
            option.number - previous :=
        EncodedHead.delta_encode (by unfold valueBound; omega)
      unfold framedOptions at rest ⊢
      simp only [Coap.encodeOptions, List.pmap_cons, parsedOptions, List.map_cons,
        messageFields, List.cons.injEq, FramedOption.parsed_fields,
        OptionFields.mk.injEq, List.forall_mem_cons, framedOption,
        buf2optionsDelta_delta, deltaIs]
      have deltaRight :=
        @decodedNumber_toNat_eq_iff (option.number - previous) (by omega)
      constructor
      · intro same
        obtain ⟨⟨_, deltaSame, _⟩, others⟩ := same
        have deltaSmall := deltaRight.mp deltaSame
        refine ⟨deltaSmall, rest.mp ?_⟩
        rwa [running_number above deltaSmall] at others
      · intro plain
        obtain ⟨deltaSmall, others⟩ := plain
        rw [running_number above deltaSmall]
        refine ⟨⟨?_, deltaRight.mpr deltaSmall, rfl, rfl⟩, rest.mpr others⟩
        rw [UInt8.toNat_ofNat']
        omega

/-! ## The packet -/

section Packet

variable {message : Message}

theorem HasByteOptions.lengths_lt (small : HasByteOptions message) :
    ∀ option ∈ Coap.encodeOptions 0 message.options, option.head.length < 256 :=
  encodeOptions_lengths_lt
    (fun option member =>
      Nat.lt_succ_of_le (small.length option member)) 0

/-- The bytes behind the token. -/
def bodyBytes (message : Message) : Bytes :=
  optionBytes (Coap.encodeOptions 0 message.options) ++ message.payloadBytes

theorem payloadBytes_marked (message : Message) :
    message.payloadBytes = [] ∨
      ∃ payload, message.payloadBytes = 0xFF :: payload := by
  unfold Message.payloadBytes
  split
  · exact Or.inl rfl
  · exact Or.inr ⟨_, rfl⟩

theorem payloadBytes_tail (message : Message) :
    message.payloadBytes.tail = message.payload := by
  unfold Message.payloadBytes
  split
  · rename_i empty
    rw [empty]
    rfl
  · rfl

theorem bodyBytes_ne_nil_iff :
    bodyBytes message ≠ [] ↔
      message.options ≠ [] ∨ message.payload ≠ [] := by
  unfold bodyBytes Message.payloadBytes
  cases options : message.options with
  | nil =>
      simp [Coap.encodeOptions, optionBytes]
  | cons option options =>
      simp [Coap.encodeOptions, optionBytes, EncodedOption.bytes,
        EncodedHead.bytes]

/-- A byte `0xFF` that ends the options of a message without payload is taken
for the payload marker, which does not matter. -/
theorem region_walked (few : message.options.length ≤ maxOptionCount)
    (small :
      ∀ option ∈ Coap.encodeOptions 0 message.options, option.head.length < 256)
    (unmarked :
      0xFF ∉ optionBytes (Coap.encodeOptions 0 message.options) ∨
        (message.payload = [] ∧
          0xFF ∉
            (optionBytes (Coap.encodeOptions 0 message.options)).dropLast)) :
    optionsWalk buf2optionsDelta buf2optionsLen maxOptionCount
          (((bodyBytes message).takeWhile (· ≠ 0xFF)).length % 2 ^ 16) 0
          (bodyBytes message) =
        .ok
          (parsedOptions buf2optionsDelta 0
            (framedOptions (Coap.encodeOptions 0 message.options) small)
            message.payloadBytes) ∧
      ((bodyBytes message).dropWhile (· ≠ 0xFF)).tail = message.payload := by
  have bytes :=
    framedBytes_framedOptions (Coap.encodeOptions 0 message.options) small
  have count :
      (framedOptions (Coap.encodeOptions 0 message.options) small).length ≤
        maxOptionCount := by
    unfold framedOptions
    rw [List.length_pmap, encodeOptions_length]
    exact few
  have walked :=
    @framedRegion_walked buf2optionsDelta buf2optionsLen
      (framedOptions (Coap.encodeOptions 0 message.options) small)
      maxOptionCount message.payload count (by decide)
      (by rw [bytes]; exact unmarked) 0
  rw [bytes] at walked
  exact ⟨walked, (unmarked_region unmarked).2⟩

theorem buf2coap_message (nonempty : bodyBytes message ≠ []) :
    buf2coap message.bytes = (do
      let options ←
        optionsWalk buf2optionsDelta buf2optionsLen maxOptionCount
          (((bodyBytes message).takeWhile (· ≠ 0xFF)).length % 2 ^ 16) 0
          (bodyBytes message)
      .ok
        { header := messageHeader message
          token := some
            (if message.token = [] then []
              else message.token ++ bodyBytes message)
          options := some options
          payloadLen :=
            ((bodyBytes message).dropWhile (· ≠ 0xFF)).tail.length
          payload := ((bodyBytes message).dropWhile (· ≠ 0xFF)).tail }) := by
  have parsed :=
    @buf2coap_of_token message.firstByte message.code
      (message.mid >>> 8).toUInt8 message.mid.toUInt8 message.token
      (bodyBytes message)
      (by rw [parseHeader_message, messageHeader_tkl])
      message.token_length_le nonempty
  rw [parseHeader_message] at parsed
  exact parsed

/-- A well-formed message with 8-bit options is parsed to its parts exactly
when it is plain. -/
theorem message_parsed_iff_isPlain (message : Message)
    (small : HasByteOptions message) :
    (∃ packet, buf2coap message.bytes = .ok packet ∧
        Represents packet message) ↔
      IsPlain message := by
  have numbers :=
    @parsedOptions_fields_iff message.options 0
      (fun option _ => Nat.zero_le option.number) message.ascending
      small.number small.lengths_lt message.payloadBytes
  constructor
  · intro parsed
    obtain ⟨packet, parsed, represents⟩ := parsed
    obtain ⟨options, optionsIs, fields⟩ := represents.options
    have nonempty : bodyBytes message ≠ [] := by
      intro empty
      obtain ⟨other, otherParsed, unwritten⟩ :=
        @buf2coap_token_only message.firstByte message.code
          (message.mid >>> 8).toUInt8 message.mid.toUInt8 message.token
          (by rw [parseHeader_message, messageHeader_tkl])
          message.token_length_le
      have bytes :
          message.bytes =
            message.firstByte :: message.code ::
              (message.mid >>> 8).toUInt8 :: message.mid.toUInt8 ::
                (message.token ++ bodyBytes message) :=
        rfl
      rw [bytes, empty, List.append_nil, otherParsed,
        Except.ok.injEq] at parsed
      rw [← parsed, unwritten] at optionsIs
      cases optionsIs
    rw [buf2coap_message nonempty] at parsed
    obtain ⟨walkedOptions, walked, same⟩ := outcome_bind_eq_ok.mp parsed
    rw [Except.ok.injEq] at same
    subst same
    have unmarked :=
      @unmarked_of_tail
        (optionBytes (Coap.encodeOptions 0 message.options)) message.payload
        represents.payloadLen
    obtain ⟨walkedAll, _⟩ := region_walked small.count small.lengths_lt unmarked
    rw [walkedAll, Except.ok.injEq] at walked
    rw [Option.some.injEq] at optionsIs
    rw [← optionsIs, ← walked] at fields
    exact
      ⟨bodyBytes_ne_nil_iff.mp nonempty, numbers.mp fields, unmarked⟩
  · intro plain
    have nonempty := bodyBytes_ne_nil_iff.mpr plain.nonempty
    obtain ⟨walked, payload⟩ :=
      region_walked small.count small.lengths_lt plain.unmarked
    have parsed := buf2coap_message nonempty
    rw [walked, outcome_ok_bind] at parsed
    refine ⟨_, parsed, rfl, ⟨_, rfl, ?_⟩, ⟨_, rfl, ?_⟩, ?_, ?_⟩
    · by_cases empty : message.token = []
      · rw [if_pos empty, empty]
        rfl
      · rw [if_neg empty, List.take_left]
    · exact numbers.mpr plain.delta
    · rw [payload]
    · rw [payload]
      exact List.take_length

end Packet

theorem confirmable_type_lt : (0 : UInt8) < 4 := by
  decide

theorem noToken_length_le : ([] : Bytes).length ≤ 8 := by
  decide

/-- A GET request with one option and no token. -/
def getMessage (number : Nat) (value : Bytes) (bound : number < 2 ^ 16)
    (valueBound : value.length < valueBound) : Message where
  type := 0
  code := 1
  mid := 1
  token := []
  options := [⟨number, value, bound, valueBound⟩]
  payload := []
  type_lt := confirmable_type_lt
  token_length_le := noToken_length_le
  ascending := List.pairwise_singleton _ _
  empty := by
    intro isEmpty
    cases isEmpty

theorem hostNumber_lt : 3 < 2 ^ 16 := by
  decide

theorem pathNumber_lt : 11 < 2 ^ 16 := by
  decide

theorem pathValue_length_lt :
    ([0x74, 0x76, 0x31] : Bytes).length < valueBound := by
  decide

theorem letter_length_lt : ([0x61] : Bytes).length < valueBound := by
  decide

/-- A request with the query `a`. -/
def queryMessage : Message :=
  getMessage 15 [0x61] (by decide) letter_length_lt

theorem token_length_le : ([0x7A, 0x31] : Bytes).length ≤ 8 := by
  decide

/-- A request with a host, a path of two segments, of which one has 13 bytes,
and a payload. -/
def pathMessage : Message where
  type := 0
  code := 2
  mid := 0x1234
  token := [0x7A, 0x31]
  options :=
    [⟨3, [0x61], hostNumber_lt, letter_length_lt⟩,
      ⟨11, [0x74, 0x76, 0x31], pathNumber_lt, pathValue_length_lt⟩,
      ⟨11, List.replicate 13 0x62, pathNumber_lt, by decide⟩,
      ⟨12, [], by decide, by decide⟩]
  payload := [0x48, 0x69]
  type_lt := confirmable_type_lt
  token_length_le := token_length_le
  ascending := by decide
  empty := by
    intro isEmpty
    cases isEmpty

theorem pathMessage_parsed :
    ∃ packet, buf2coap pathMessage.bytes = .ok packet ∧
      Represents packet pathMessage :=
  (message_parsed_iff_isPlain pathMessage
      ⟨by decide, by decide, by decide⟩).mpr
    ⟨by decide, by decide, by decide⟩

/-- The query is parsed as an option with the number 245. -/
theorem queryMessage_misparsed :
    ¬ ∀ message : Message, HasByteOptions message →
      ∃ packet, buf2coap message.bytes = .ok packet ∧
        Represents packet message := by
  intro right
  obtain ⟨packet, parsed, represents⟩ :=
    right queryMessage ⟨by decide, by decide, by decide⟩
  obtain ⟨options, optionsIs, fields⟩ := represents.options
  have misparsed :
      (buf2coap queryMessage.bytes).map OCoapPacket.options =
        .ok (some
          [ { delta := 245, len := 1, value := [0x61]
              optionNumber := 245 } ]) :=
    rfl
  rw [parsed] at misparsed
  have same := Except.ok.inj misparsed
  rw [optionsIs, Option.some.injEq] at same
  rw [same] at fields
  exact absurd fields (by decide)

end UoscoreUedhoc.Oscore

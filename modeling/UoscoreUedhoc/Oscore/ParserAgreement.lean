import UoscoreUedhoc.Oscore.MessageParsing
import UoscoreUedhoc.Oscore.ParserSafety
import UoscoreUedhoc.Oscore.Oscore2Coap

/-!
# The two option parsers

`buf2options` parses the options of a packet and `oscore_packet_options_parser`
those of a decrypted plaintext.  Their deltas are the same.  Their lengths
differ wherever a length has extension bytes: the one adds 13 or 269 to them and
the other subtracts as much.
-/

namespace UoscoreUedhoc.Oscore

open UoscoreUedhoc
open UoscoreUedhoc.Coap

/-! ## Agreement -/

/-- Two parsers return the same error code, or `ok` and as many options with
the same numbers, deltas, lengths and values. -/
def SameResult : Outcome (List OCoapOption) → Outcome (List OCoapOption) → Prop
  | .ok options, .ok others =>
      options.map OCoapOption.fields = others.map OCoapOption.fields
  | .error (.err code), .error (.err other) => code = other
  | _, _ => False

instance decidableSameResult :
    (result other : Outcome (List OCoapOption)) →
      Decidable (SameResult result other)
  | .ok options, .ok others =>
      inferInstanceAs (Decidable
        (options.map OCoapOption.fields = others.map OCoapOption.fields))
  | .error (.err code), .error (.err other) =>
      inferInstanceAs (Decidable (code = other))
  | .ok _, .error _ => instDecidableFalse
  | .error (.err _), .ok _ => instDecidableFalse
  | .error (.err _), .error .undefinedBehaviour => instDecidableFalse
  | .error .undefinedBehaviour, _ => instDecidableFalse

/-- The two parsers agree on the first `inDataLen` bytes at a pointer. -/
def ParsersAgree (inData : Bytes) (inDataLen : UInt16) : Prop :=
  SameResult (buf2options inData inDataLen)
    (oscorePacketOptionsParser inData inDataLen)

instance (inData : Bytes) (inDataLen : UInt16) :
    Decidable (ParsersAgree inData inDataLen) :=
  decidableSameResult _ _

/-- Both parsers run into a reserved nibble, and into one of the same kind. -/
def BothRefuse (left : Nat) (inData : Bytes) : Prop :=
  ∃ code, MeetsRefused code buf2optionsLen maxOptionCount left inData ∧
    MeetsRefused code oscorePacketOptionsField maxInnerOptionCount left inData

/-! ## Deltas and lengths -/

theorem oscorePacketOptionsField_one (first : UInt8) :
    oscorePacketOptionsField.one first = first + 13 + -26 := by
  change first - 13 = first + 13 + -26
  rw [UInt8.sub_eq_add_neg, UInt8.add_assoc]
  rfl

theorem oscorePacketOptionsField_two (first second : UInt8) :
    oscorePacketOptionsField.two first second = second + 13 + -26 := by
  change
    (((first.toUInt32 <<< 8) ||| second.toUInt32) - 269).toUInt8 =
      second + 13 + -26
  rw [UInt32.toUInt8_sub, UInt32.toUInt8_or, toUInt8_shiftLeft_eight,
    UInt8.zero_or, UInt8.toUInt8_toUInt32, UInt8.sub_eq_add_neg,
    UInt8.add_assoc]
  rfl

theorem oscorePacketOptionsField_delta (head : EncodedHead) :
    oscorePacketOptionsField.delta head = buf2optionsDelta.delta head := by
  rw [buf2optionsDelta_delta]
  exact
    decode_eq_decodedNumber (-26) oscorePacketOptionsField_one
      oscorePacketOptionsField_two head.deltaNibble_lt
      head.deltaExtension_length

theorem oscorePacketOptionsField_len (head : EncodedHead) :
    oscorePacketOptionsField.len head = decodedNumber (-26) head.length :=
  decode_eq_decodedNumber (-26) oscorePacketOptionsField_one
    oscorePacketOptionsField_two head.lenNibble_lt head.lenExtension_length

/-- The parsers compute the same length where there are no extension bytes. -/
theorem sameLen_iff (head : EncodedHead) :
    buf2optionsLen.len head = oscorePacketOptionsField.len head ↔
      head.length < 13 := by
  rw [buf2optionsLen_len, oscorePacketOptionsField_len, decodedNumber]
  by_cases short : head.length < 13
  · rw [if_pos short]
    exact iff_of_true rfl short
  · rw [if_neg short]
    apply iff_of_false _ short
    intro same
    have shifted :
        UInt8.ofNat head.length + 0 = UInt8.ofNat head.length + -26 := by
      rw [UInt8.add_zero]
      exact same
    exact absurd (UInt8.add_right_inj _ |>.mp shifted) (by decide)

/-! ## Short values -/

theorem optionBytes_cons (option : EncodedOption)
    (options : List EncodedOption) :
    optionBytes (option :: options) =
      option.head.bytes ++ (option.value ++ optionBytes options) := by
  rw [optionBytes, List.map_cons, List.flatten_cons, EncodedOption.bytes,
    List.append_assoc]
  rfl

theorem optionBytes_length_cons (option : EncodedOption)
    (options : List EncodedOption) :
    (optionBytes (option :: options)).length =
      option.head.bytes.length + option.value.length +
        (optionBytes options).length := by
  rw [optionBytes_cons, List.length_append, List.length_append, Nat.add_assoc]

/-- One round of the walk over an option whose length is computed rightly. -/
theorem optionsWalk_encoded {delta len : ExtensionDecoder} {slots : Nat}
    {number : UInt8} {after : Bytes} (option : EncodedOption)
    (options : List EncodedOption)
    (isLen : option.value.length = (len.len option.head).toNat) :
    optionsWalk delta len (slots + 1) (optionBytes (option :: options)).length
        number (optionBytes (option :: options) ++ after) = (do
      let others ←
        optionsWalk delta len slots (optionBytes options).length
          (number + delta.delta option.head) (optionBytes options ++ after)
      .ok
        ({ delta := (delta.delta option.head).toUInt16
           len := len.len option.head
           value :=
            if len.len option.head = 0 then []
            else option.value ++ (optionBytes options ++ after)
           optionNumber := number + delta.delta option.head } :: others)) := by
  have positive := option.head.bytes_length_pos
  have total := optionBytes_length_cons option options
  have step :=
    @optionsWalk_cons delta len ⟨option.head, option.value, isLen⟩ slots
      (optionBytes (option :: options)).length (by omega) number
      (optionBytes options ++ after)
  have framed :
      (FramedOption.bytes (⟨option.head, option.value, isLen⟩ :
          FramedOption len)).length =
        option.head.bytes.length + option.value.length :=
    List.length_append
  have left :
      (optionBytes (option :: options)).length -
          (option.head.bytes.length + option.value.length) =
        (optionBytes options).length := by
    omega
  rw [framed, left, FramedOption.bytes, List.append_assoc] at step
  rw [optionBytes_cons, List.append_assoc, List.append_assoc]
  rw [optionBytes_cons] at step
  exact step

/-- On options with short values, the two parsers find the same. -/
theorem optionsWalk_agree {options : List EncodedOption}
    (short : ∀ option ∈ options, option.value.length < 13)
    {slots innerSlots : Nat} (fits : options.length ≤ slots)
    (innerFits : options.length ≤ innerSlots) (number : UInt8)
    (after : Bytes) :
    ∃ parsed,
      optionsWalk buf2optionsDelta buf2optionsLen slots
          (optionBytes options).length number (optionBytes options ++ after) =
        .ok parsed ∧
      optionsWalk oscorePacketOptionsField oscorePacketOptionsField innerSlots
          (optionBytes options).length number (optionBytes options ++ after) =
        .ok parsed := by
  induction options generalizing slots innerSlots number with
  | nil =>
      exact
        ⟨[], optionsWalk_zero _ slots number _,
          optionsWalk_zero _ innerSlots number _⟩
  | cons option options inductionHypothesis =>
      obtain ⟨shortValue, shortValues⟩ := List.forall_mem_cons.mp short
      obtain ⟨slots, rfl⟩ := Nat.exists_eq_add_of_le' fits
      obtain ⟨innerSlots, rfl⟩ := Nat.exists_eq_add_of_le' innerFits
      have shortLength : option.head.length < 13 := by
        rw [← option.value_length]
        exact shortValue
      have sameLen := (sameLen_iff option.head).mpr shortLength
      have isLen :
          option.value.length = (buf2optionsLen.len option.head).toNat := by
        rw [buf2optionsLen_len, UInt8.toNat_ofNat', ← option.value_length]
        omega
      obtain ⟨parsed, walked, innerWalked⟩ :=
        @inductionHypothesis shortValues (slots + options.length)
          (innerSlots + options.length) (Nat.le_add_left _ _)
          (Nat.le_add_left _ _) (number + buf2optionsDelta.delta option.head)
      rw [List.length_cons, ← Nat.add_assoc, ← Nat.add_assoc,
        optionsWalk_encoded option options isLen,
        optionsWalk_encoded option options (sameLen ▸ isLen),
        oscorePacketOptionsField_delta, walked, innerWalked, sameLen]
      exact ⟨_, rfl, rfl⟩

/-- A walk that finds options in front of others reads the head of the first
one. -/
theorem optionsWalk_encoded_eq_ok {delta len : ExtensionDecoder} {slots : Nat}
    {number : UInt8} {after : Bytes} {option : EncodedOption}
    {options : List EncodedOption} {found : List OCoapOption}
    (walked :
      optionsWalk delta len slots (optionBytes (option :: options)).length
          number (optionBytes (option :: options) ++ after) =
        .ok found) :
    ∃ first others, found = first :: others ∧
      first.len = len.len option.head ∧
        (option.value.length = (len.len option.head).toNat →
          ∃ fewer,
            optionsWalk delta len fewer (optionBytes options).length
                (number + delta.delta option.head)
                (optionBytes options ++ after) =
              .ok others) := by
  have positive := option.head.bytes_length_pos
  have total := optionBytes_length_cons option options
  cases slots with
  | zero =>
      have ended := ((optionsWalk_no_slot_eq_ok delta).mp walked).1
      omega
  | succ slots =>
      rcases (optionsWalk_succ_eq_ok delta).mp walked with
        ⟨empty, _⟩ | ⟨_, head, rest, others, split, _, rfl⟩
      · omega
      · rw [optionBytes_cons, List.append_assoc] at split
        obtain ⟨rfl, _⟩ := EncodedHead.bytes_append_inj split
        refine ⟨_, others, rfl, rfl, ?_⟩
        intro isLen
        rw [optionsWalk_encoded option options isLen,
          outcome_bind_eq_ok] at walked
        obtain ⟨others', walkedOthers, isFound⟩ := walked
        obtain ⟨_, rfl⟩ := List.cons.inj (Except.ok.inj isFound)
        exact ⟨slots, walkedOthers⟩

/-- Where the two parsers find the same options, the values are short. -/
theorem short_of_walks {options : List EncodedOption}
    {slots innerSlots : Nat} {number innerNumber : UInt8} {after : Bytes}
    {found innerFound : List OCoapOption}
    (walked :
      optionsWalk buf2optionsDelta buf2optionsLen slots
          (optionBytes options).length number (optionBytes options ++ after) =
        .ok found)
    (innerWalked :
      optionsWalk oscorePacketOptionsField oscorePacketOptionsField innerSlots
          (optionBytes options).length innerNumber
          (optionBytes options ++ after) =
        .ok innerFound)
    (same :
      found.map OCoapOption.fields = innerFound.map OCoapOption.fields) :
    ∀ option ∈ options, option.value.length < 13 := by
  induction options generalizing slots innerSlots number innerNumber found
      innerFound with
  | nil =>
      intro option member
      cases member
  | cons option options inductionHypothesis =>
      obtain ⟨first, others, rfl, firstLen, rest⟩ :=
        optionsWalk_encoded_eq_ok walked
      obtain ⟨innerFirst, innerOthers, rfl, innerFirstLen, innerRest⟩ :=
        optionsWalk_encoded_eq_ok innerWalked
      obtain ⟨sameFirst, sameOthers⟩ := List.cons.inj same
      have sameLen :
          buf2optionsLen.len option.head =
            oscorePacketOptionsField.len option.head := by
        rw [← firstLen, ← innerFirstLen]
        exact UInt8.toNat_inj.mp (congrArg OptionFields.length sameFirst)
      have short : option.value.length < 13 := by
        rw [option.value_length]
        exact (sameLen_iff option.head).mp sameLen
      have isLen :
          option.value.length = (buf2optionsLen.len option.head).toNat := by
        rw [buf2optionsLen_len, UInt8.toNat_ofNat', ← option.value_length]
        omega
      obtain ⟨fewer, walkedOthers⟩ := rest isLen
      obtain ⟨innerFewer, innerWalkedOthers⟩ := innerRest (sameLen ▸ isLen)
      rw [List.forall_mem_cons]
      exact
        ⟨short, inductionHypothesis walkedOthers innerWalkedOthers sameOthers⟩

/-! ## Both parsers -/

/-- The parsers as walks over the options. -/
theorem parsers_eq_walk {inData : Bytes} (left : Nat) (narrow : left < 2 ^ 16) :
    buf2options inData (UInt16.ofNat left) =
        optionsWalk buf2optionsDelta buf2optionsLen maxOptionCount left 0
          inData ∧
      oscorePacketOptionsParser inData (UInt16.ofNat left) =
        optionsWalk oscorePacketOptionsField oscorePacketOptionsField
          maxInnerOptionCount left 0 inData := by
  have isLeft : (UInt16.ofNat left).toNat = left := by
    rw [UInt16.toNat_ofNat', Nat.mod_eq_of_lt narrow]
  constructor
  · have walk :=
      optionsLoop_eq_walk buf2optionsDelta buf2optionsLen (UInt16.ofNat left)
        maxOptionCount 0 0 inData (by decide)
    rw [isLeft] at walk
    exact walk
  · have walk :=
      optionsLoop_eq_walk oscorePacketOptionsField oscorePacketOptionsField
        (UInt16.ofNat left) maxInnerOptionCount 0 0 inData (by decide)
    rw [isLeft] at walk
    exact walk

/-- On the bytes of at most ten options, the two parsers agree exactly when
every value has fewer than 13 bytes or both refuse the bytes alike. -/
theorem parsersAgree_iff (options : List EncodedOption) (after : Bytes)
    (fewOptions : options.length ≤ 10)
    (narrow : (optionBytes options).length ≤ 65535) :
    ParsersAgree (optionBytes options ++ after)
        (UInt16.ofNat (optionBytes options).length) ↔
      (∀ option ∈ options, option.value.length < 13) ∨
        BothRefuse (optionBytes options).length
          (optionBytes options ++ after) := by
  have inside :
      (optionBytes options).length ≤ (optionBytes options ++ after).length := by
    rw [List.length_append]
    exact Nat.le_add_right _ _
  obtain ⟨outer, inner⟩ :=
    @parsers_eq_walk (optionBytes options ++ after)
      (optionBytes options).length (by omega)
  unfold ParsersAgree BothRefuse
  rw [outer, inner]
  constructor
  · intro same
    unfold SameResult at same
    split at same
    · rename_i walked innerWalked
      exact Or.inl (short_of_walks walked innerWalked same)
    · rename_i code other refused innerRefused
      subst same
      exact
        Or.inr ⟨code, (optionsWalk_eq_fail inside).mp refused,
          (optionsWalk_eq_fail inside).mp innerRefused⟩
    · cases same
  · intro condition
    rcases condition with short | ⟨code, refused, innerRefused⟩
    · obtain ⟨parsed, walked, innerWalked⟩ :=
        @optionsWalk_agree options short maxOptionCount maxInnerOptionCount
          (by unfold maxOptionCount; omega) fewOptions 0 after
      rw [walked, innerWalked]
      exact rfl
    · rw [(optionsWalk_eq_fail inside).mpr refused,
        (optionsWalk_eq_fail inside).mpr innerRefused]
      exact rfl

/-- A Uri-Host and a Uri-Path. -/
theorem parsersAgree_path :
    ParsersAgree [0x31, 0x61, 0x82, 0x62, 0x63] 5 :=
  (parsersAgree_iff
      [EncodedOption.encode 3 [0x61] (by decide),
        EncodedOption.encode 8 [0x62, 0x63] (by decide)]
      [] (by decide) (by decide)).mpr (Or.inl (by decide))

/-- An option with a value of 13 bytes. -/
theorem thirteenBytes_differ :
    ¬ ∀ (options : List EncodedOption) (after : Bytes), options.length ≤ 10 →
        (optionBytes options).length ≤ 65535 →
        ParsersAgree (optionBytes options ++ after)
          (UInt16.ofNat (optionBytes options).length) := by
  intro claimed
  have agree :=
    claimed [EncodedOption.encode 11 (List.replicate 13 0x61) (by decide)] []
      (by decide) (by decide)
  exact absurd agree (by decide)

end UoscoreUedhoc.Oscore

import Mathlib.Data.List.TakeDrop
import UoscoreUedhoc.Coap.OptionFormat
import UoscoreUedhoc.Oscore.OscoreCoap

/-!
# The bytes of options

Both option parsers run one loop over the option format.  They read the heads
of the format, up to the reserved nibbles, and compute a delta and a length from
each, which need not be the ones it stands for.
-/

namespace UoscoreUedhoc.Oscore

open UoscoreUedhoc
open UoscoreUedhoc.Coap

/-! ## Extension bytes -/

/-- The value of a nibble with its extension bytes. -/
def ExtensionDecoder.decode (decoder : ExtensionDecoder) (nibble : UInt8) :
    Bytes → UInt8
  | [] => nibble
  | [first] => decoder.one first
  | first :: second :: _ => decoder.two first second

section ExtendedField

variable {decoder : ExtensionDecoder} {reserved code : Err}
  {nibble value count : UInt8} {p rest : Bytes}

theorem extendedField_eq_ok :
    extendedField decoder reserved nibble p = .ok (value, count, rest) ↔
      nibble ≠ 15 ∧ ∃ extension, p = extension ++ rest ∧
        extension.length = extensionLength nibble ∧
        value = decoder.decode nibble extension ∧
        count = UInt8.ofNat extension.length := by
  unfold extendedField extensionLength
  constructor
  · intro read
    split at read
    · rename_i isOne
      split at read
      · simp only [Except.ok.injEq, Prod.mk.injEq] at read
        obtain ⟨rfl, rfl, rfl⟩ := read
        refine ⟨by simp [isOne], [_], rfl, by simp [isOne], rfl, rfl⟩
      · cases read
    · rename_i notOne
      split at read
      · rename_i isTwo
        split at read
        · simp only [Except.ok.injEq, Prod.mk.injEq] at read
          obtain ⟨rfl, rfl, rfl⟩ := read
          exact ⟨by simp [isTwo], [_, _], rfl, by simp [isTwo], rfl, rfl⟩
        · cases read
      · rename_i notTwo
        split at read
        · cases read
        · rename_i notReserved
          simp only [Except.ok.injEq, Prod.mk.injEq] at read
          obtain ⟨rfl, rfl, rfl⟩ := read
          exact
            ⟨notReserved, [], rfl, by simp [notOne, notTwo], rfl, rfl⟩
  · intro described
    obtain ⟨notReserved, extension, rfl, length, rfl, rfl⟩ := described
    by_cases isOne : nibble = 13
    · rw [if_pos isOne] at length
      obtain ⟨first, rfl⟩ := List.length_eq_one_iff.mp length
      rw [if_pos isOne]
      rfl
    · rw [if_neg isOne] at length
      rw [if_neg isOne]
      by_cases isTwo : nibble = 14
      · rw [if_pos isTwo] at length
        obtain ⟨first, second, rfl⟩ := List.length_eq_two.mp length
        rw [if_pos isTwo]
        rfl
      · rw [if_neg isTwo] at length
        have empty := List.length_eq_zero_iff.mp length
        subst empty
        rw [if_neg isTwo, if_neg notReserved]
        rfl

theorem extendedField_eq_err :
    extendedField decoder reserved nibble p = .error (.err code) ↔
      nibble = 15 ∧ code = reserved := by
  unfold extendedField
  split
  · rename_i isOne
    split
    · simp [isOne]
    · simp [isOne, undefinedBehaviour]
  · split
    · rename_i isTwo
      split
      · simp [isTwo]
      · simp [isTwo, undefinedBehaviour]
    · split
      · rename_i isReserved
        simp [isReserved, fail, eq_comm]
      · rename_i notReserved
        simp [notReserved]

end ExtendedField

/-! ## Heads of options -/

/-- The delta that a parser computes from a head. -/
def ExtensionDecoder.delta (decoder : ExtensionDecoder) (head : EncodedHead) :
    UInt8 :=
  decoder.decode (deltaNibble head.first) head.deltaExtension

/-- The length that a parser computes from a head. -/
def ExtensionDecoder.len (decoder : ExtensionDecoder) (head : EncodedHead) :
    UInt8 :=
  decoder.decode (lenNibble head.first) head.lenExtension

/-- A reserved nibble is reached before the end of the buffer. -/
def ReservedHead (p : Bytes) : Prop :=
  ∃ first rest, p = first :: rest ∧
    (deltaNibble first = 15 ∨
      (lenNibble first = 15 ∧
        extensionLength (deltaNibble first) ≤ rest.length))

/-- The reserved nibble is reached for which a parser returns this code. -/
def RefusedHead (code : Err) (p : Bytes) : Prop :=
  ∃ first rest, p = first :: rest ∧
    ((deltaNibble first = 15 ∧ code = .oscoreInpktInvalidOptionDelta) ∨
      (deltaNibble first ≠ 15 ∧ lenNibble first = 15 ∧
        extensionLength (deltaNibble first) ≤ rest.length ∧
        code = .oscoreInpktInvalidOptionlen))

theorem reservedHead_iff {p : Bytes} :
    ReservedHead p ↔ ∃ code, RefusedHead code p := by
  constructor
  · intro reserved
    obtain ⟨first, rest, same, isReserved⟩ := reserved
    by_cases deltaReserved : deltaNibble first = 15
    · exact ⟨_, first, rest, same, Or.inl ⟨deltaReserved, rfl⟩⟩
    · rcases isReserved with reserved | ⟨reserved, room⟩
      · exact absurd reserved deltaReserved
      · exact
          ⟨_, first, rest, same,
            Or.inr ⟨deltaReserved, reserved, room, rfl⟩⟩
  · intro refused
    obtain ⟨code, first, rest, same, ⟨reserved, _⟩ | ⟨_, reserved, room, _⟩⟩ :=
      refused
    · exact ⟨first, rest, same, Or.inl reserved⟩
    · exact ⟨first, rest, same, Or.inr ⟨reserved, room⟩⟩

section OptionHead

variable {delta len : ExtensionDecoder} {p : Bytes}

theorem optionHead_eq_ok {head : OptionHead} :
    optionHead delta len p = .ok head ↔
      ∃ encoded : EncodedHead, p = encoded.bytes ++ head.rest ∧
        head.headerLen = UInt8.ofNat encoded.bytes.length ∧
        head.delta = delta.delta encoded ∧
        head.len = len.len encoded := by
  cases p with
  | nil =>
      simp [optionHead, undefinedBehaviour, EncodedHead.bytes]
  | cons first afterFirst =>
      simp only [optionHead, outcome_bind_eq_ok, Prod.exists,
        extendedField_eq_ok, Except.ok.injEq]
      constructor
      · intro read
        obtain ⟨_, _, _, ⟨deltaValid, deltaExtension, rfl, deltaLength, rfl,
          rfl⟩, _, _, _, ⟨lenValid, lenExtension, rfl, lenLength, rfl, rfl⟩,
          rfl⟩ := read
        have nibbles := nibbles_lt_iff first
        refine
          ⟨⟨first, deltaExtension, lenExtension, nibbles.1.mpr deltaValid,
            nibbles.2.mpr lenValid, deltaLength, lenLength⟩, by simp [EncodedHead.bytes], ?_, rfl,
            rfl⟩
        simp only [EncodedHead.bytes, List.length_cons, List.length_append]
        rw [Nat.add_comm, UInt8.ofNat_add, UInt8.ofNat_add, UInt8.add_assoc]
        rfl
      · intro described
        obtain ⟨encoded, same, headerLen, deltaIs, lenIs⟩ := described
        obtain ⟨first', deltaExtension, lenExtension, deltaValid, lenValid,
          deltaLength, lenLength⟩ := encoded
        simp only [EncodedHead.bytes, List.cons_append, List.append_assoc,
          List.cons.injEq] at same
        obtain ⟨rfl, rfl⟩ := same
        have nibbles := nibbles_lt_iff first
        refine
          ⟨_, _, _, ⟨nibbles.1.mp deltaValid, deltaExtension, rfl,
            deltaLength, rfl, rfl⟩,
            _, _, _, ⟨nibbles.2.mp lenValid, lenExtension, rfl, lenLength,
              rfl, rfl⟩, ?_⟩
        obtain ⟨_, _, _, _⟩ := head
        simp only [EncodedHead.bytes, List.length_cons, List.length_append]
          at headerLen
        rw [Nat.add_comm, UInt8.ofNat_add, UInt8.ofNat_add, ← UInt8.add_assoc]
          at headerLen
        dsimp only at deltaIs lenIs
        rw [headerLen, deltaIs, lenIs]
        rfl

theorem optionHead_eq_fail {code : Err} :
    optionHead delta len p = .error (.err code) ↔ RefusedHead code p := by
  cases p with
  | nil =>
      simp [optionHead, undefinedBehaviour, RefusedHead]
  | cons first afterFirst =>
      simp only [optionHead, outcome_bind_eq_error, Prod.exists,
        extendedField_eq_ok, extendedField_eq_err]
      constructor
      · intro failed
        obtain ⟨reserved, isCode⟩ | ⟨_, _, afterDelta, ⟨valid, extension, split,
          length, _⟩, ⟨reserved, isCode⟩ | ⟨_, _, _, _, impossible⟩⟩ := failed
        · exact ⟨first, afterFirst, rfl, Or.inl ⟨reserved, isCode⟩⟩
        · refine
            ⟨first, afterFirst, rfl, Or.inr ⟨valid, reserved, ?_, isCode⟩⟩
          rw [split, List.length_append]
          unfold deltaNibble
          omega
        · cases impossible
      · intro refused
        obtain ⟨first', rest, same, isRefused⟩ := refused
        obtain ⟨rfl, rfl⟩ := List.cons.inj same
        rcases isRefused with reserved | ⟨valid, reserved, room, isCode⟩
        · exact Or.inl reserved
        · refine
            Or.inr ⟨_, _, afterFirst.drop (extensionLength
              (deltaNibble first)), ⟨valid,
                afterFirst.take (extensionLength (deltaNibble first)),
                (List.take_append_drop _ _).symm, ?_, rfl, rfl⟩,
              Or.inl ⟨reserved, isCode⟩⟩
          exact List.length_take_of_le room

theorem optionHead_bytes (encoded : EncodedHead) (rest : Bytes) :
    optionHead delta len (encoded.bytes ++ rest) =
      .ok
        { headerLen := UInt8.ofNat encoded.bytes.length
          delta := delta.delta encoded
          len := len.len encoded
          rest := rest } :=
  optionHead_eq_ok.mpr ⟨encoded, rfl, rfl, rfl, rfl⟩

end OptionHead

theorem headBytes_toNat (head : EncodedHead) :
    (UInt8.ofNat head.bytes.length).toNat = head.bytes.length := by
  have small := head.bytes_length_le
  rw [UInt8.toNat_ofNat']
  omega

/-! ## What a parser computes from a head -/

theorem toUInt8_shiftLeft_eight (value : UInt32) :
    (value <<< 8).toUInt8 = 0 := by
  apply UInt8.toNat_inj.mp
  rw [UInt32.toNat_toUInt8, UInt32.toNat_shiftLeft, Nat.shiftLeft_eq]
  simp only [UInt32.reduceToNat, UInt8.reduceToNat, Nat.reduceMod,
    Nat.reducePow]
  omega

/-- What a decoder with 8-bit arithmetic gives that adds `offset` too much to
every extended number. -/
def decodedNumber (offset : UInt8) (value : Nat) : UInt8 :=
  if value < 13 then UInt8.ofNat value else UInt8.ofNat value + offset

theorem decode_eq_decodedNumber {decoder : ExtensionDecoder} {nibble : UInt8}
    {extension : Bytes} (offset : UInt8)
    (one : ∀ first, decoder.one first = first + 13 + offset)
    (two : ∀ first second, decoder.two first second = second + 13 + offset)
    (valid : nibble < 15)
    (length : extension.length = extensionLength nibble) :
    decoder.decode nibble extension =
      decodedNumber offset (extensionValue nibble extension) := by
  obtain ⟨nibbleIs, extensionIs⟩ := encode_extensionValue valid length
  match extension with
  | [] =>
      have small : extensionValue nibble [] < 13 := by
        by_contra large
        unfold extensionOf at extensionIs
        rw [if_neg large] at extensionIs
        split at extensionIs
        · cases extensionIs
        · cases extensionIs
      rw [decodedNumber, if_pos small]
      simp [ExtensionDecoder.decode, extensionValue]
  | [first] =>
      have large : ¬ extensionValue nibble [first] < 13 := by
        simp only [extensionValue]
        omega
      rw [decodedNumber, if_neg large, ExtensionDecoder.decode, one,
        extensionValue, Nat.add_comm, UInt8.ofNat_add, UInt8.ofNat_toNat]
      rfl
  | first :: second :: rest =>
      have large : ¬ extensionValue nibble (first :: second :: rest) < 13 := by
        simp only [extensionValue]
        omega
      have low :
          UInt8.ofNat (269 + 256 * first.toNat + second.toNat) =
            second + 13 := by
        apply UInt8.toNat_inj.mp
        rw [UInt8.toNat_ofNat', UInt8.toNat_add]
        simp only [UInt8.reduceToNat]
        omega
      rw [decodedNumber, if_neg large, ExtensionDecoder.decode, two,
        extensionValue, low]

theorem buf2optionsDelta_delta (head : EncodedHead) :
    buf2optionsDelta.delta head = decodedNumber (-26) head.delta := by
  apply decode_eq_decodedNumber (-26) _ _ head.deltaNibble_lt
    head.deltaExtension_length
  · intro first
    change first - 13 = first + 13 + -26
    rw [UInt8.sub_eq_add_neg, UInt8.add_assoc]
    rfl
  · intro first second
    change
      ((first.toUInt32 <<< 8) ||| (second.toUInt32 - 269)).toUInt8 =
        second + 13 + -26
    rw [UInt32.toUInt8_or, toUInt8_shiftLeft_eight, UInt32.toUInt8_sub,
      UInt8.zero_or, UInt8.toUInt8_toUInt32, UInt8.sub_eq_add_neg,
      UInt8.add_assoc]
    rfl

/-- The lengths are right up to the 8 bits they have. -/
theorem buf2optionsLen_len (head : EncodedHead) :
    buf2optionsLen.len head = UInt8.ofNat head.length := by
  have decoded :
      buf2optionsLen.len head = decodedNumber 0 head.length := by
    apply decode_eq_decodedNumber 0 _ _ head.lenNibble_lt
      head.lenExtension_length
    · intro first
      rw [UInt8.add_zero]
      rfl
    · intro first second
      change
        ((first.toUInt32 <<< 8) ||| (second.toUInt32 + 269)).toUInt8 =
          second + 13 + 0
      rw [UInt32.toUInt8_or, toUInt8_shiftLeft_eight, UInt32.toUInt8_add,
        UInt8.zero_or, UInt8.toUInt8_toUInt32, UInt8.add_zero]
      rfl
  rw [decoded, decodedNumber, UInt8.add_zero, ite_self]

/-! ## The option loop -/

section OptionsLoop

variable (delta len : ExtensionDecoder)

/-- The option loop with the number of bytes left, instead of a 16-bit
position: the position cannot wrap around before the option array is full. -/
def optionsWalk : Nat → Nat → UInt8 → Bytes → Outcome (List OCoapOption)
  | 0, left, _, p =>
      if 0 < left then do
        let _ ← optionHead delta len p
        undefinedBehaviour
      else
        .ok []
  | slots + 1, left, number, p =>
      if 0 < left then do
        let head ← optionHead delta len p
        let optionNumber := number + head.delta
        let options ←
          optionsWalk slots
            (left - (head.headerLen.toNat + head.len.toNat))
            optionNumber (head.rest.drop head.len.toNat)
        .ok
          ({ delta := head.delta.toUInt16
             len := head.len
             value := if head.len = 0 then [] else head.rest
             optionNumber := optionNumber } :: options)
      else
        .ok []

/-- The most bytes that one option takes: five and a value. -/
def maxOptionBytes : Nat := 260

theorem optionHead_headerLen_le {p : Bytes} {head : OptionHead}
    (read : optionHead delta len p = .ok head) :
    head.headerLen.toNat + head.len.toNat ≤ maxOptionBytes := by
  obtain ⟨encoded, _, headerLen, _⟩ := optionHead_eq_ok.mp read
  have small := encoded.bytes_length_le
  have lenBound := head.len.toNat_lt
  rw [headerLen, headBytes_toNat]
  unfold maxOptionBytes
  omega

/-- The 16-bit counter of the loop counts the bytes of an option, up to 65535
of them. -/
theorem counter_toNat {i : UInt16} {headerLen valueLen : UInt8}
    (small : i.toNat + (headerLen.toNat + valueLen.toNat) < 2 ^ 16) :
    (i + headerLen.toUInt16 + valueLen.toUInt16).toNat =
      i.toNat + (headerLen.toNat + valueLen.toNat) := by
  rw [UInt16.toNat_add, UInt16.toNat_add, UInt8.toNat_toUInt16,
    UInt8.toNat_toUInt16]
  omega

/-- The counter does not wrap while there is room for the options left. -/
theorem counter_advanced {p : Bytes} {head : OptionHead} {i : UInt16}
    {slots : Nat} (read : optionHead delta len p = .ok head)
    (room : i.toNat + (slots + 1) * maxOptionBytes < 2 ^ 16) :
    (i + head.headerLen.toUInt16 + head.len.toUInt16).toNat =
        i.toNat + (head.headerLen.toNat + head.len.toNat) ∧
      (i + head.headerLen.toUInt16 + head.len.toUInt16).toNat +
          slots * maxOptionBytes < 2 ^ 16 := by
  have small := optionHead_headerLen_le delta len read
  unfold maxOptionBytes at small room ⊢
  have counted :=
    @counter_toNat i head.headerLen head.len (by omega)
  exact ⟨counted, by omega⟩

theorem optionsLoop_eq_walk (inDataLen : UInt16) (slots : Nat) (i : UInt16)
    (number : UInt8) (p : Bytes)
    (room : i.toNat + slots * maxOptionBytes < 2 ^ 16) :
    optionsLoop delta len inDataLen slots i number p =
      optionsWalk delta len slots (inDataLen.toNat - i.toNat) number p := by
  have below : i < inDataLen ↔ 0 < inDataLen.toNat - i.toNat := by
    rw [UInt16.lt_iff_toNat_lt]
    omega
  induction slots generalizing i number p with
  | zero =>
      unfold optionsLoop optionsWalk
      simp only [below]
  | succ slots inductionHypothesis =>
      unfold optionsLoop optionsWalk
      simp only [below]
      split
      · cases read : optionHead delta len p with
        | error fault =>
            rfl
        | ok head =>
            simp only [outcome_ok_bind]
            obtain ⟨advanced, roomLeft⟩ := counter_advanced delta len read room
            rw [inductionHypothesis _ _ _ roomLeft, advanced, Nat.sub_add_eq]
            · rw [UInt16.lt_iff_toNat_lt]
              omega
      · rfl

theorem parseOptions_eq_walk {slots : Nat}
    (room : slots * maxOptionBytes < 2 ^ 16) (p : Bytes)
    (optionsLen : UInt16) :
    parseOptions
        (fun inData inDataLen =>
          optionsLoop delta len inDataLen slots 0 0 inData) p optionsLen =
      optionsWalk delta len slots optionsLen.toNat 0 p := by
  unfold parseOptions
  by_cases positive : 0 < optionsLen
  · have started : (0 : UInt16).toNat + slots * maxOptionBytes < 2 ^ 16 := by
      simpa using room
    rw [if_pos positive]
    exact optionsLoop_eq_walk delta len optionsLen slots 0 0 p started
  · have zero : optionsLen.toNat = 0 := by
      simpa [UInt16.lt_iff_toNat_lt] using positive
    rw [if_neg positive, zero]
    cases slots with
    | zero =>
        rfl
    | succ slots =>
        rfl

end OptionsLoop

/-! ## Options as a parser delimits them -/

/-- The bytes of an option whose value is as long as the parser computes. -/
structure FramedOption (len : ExtensionDecoder) where
  head : EncodedHead
  value : Bytes
  value_length : value.length = (len.len head).toNat

section Framed

variable {delta len : ExtensionDecoder}

def FramedOption.bytes (option : FramedOption len) : Bytes :=
  option.head.bytes ++ option.value

theorem FramedOption.bytes_length_pos (option : FramedOption len) :
    0 < option.bytes.length := by
  have headPositive := option.head.bytes_length_pos
  rw [bytes, List.length_append]
  omega

/-- A head and the bytes behind it make an option where they hold its value. -/
theorem exists_framedOption {head : EncodedHead} {rest : Bytes}
    (available : (len.len head).toNat ≤ rest.length) :
    ∃ option : FramedOption len,
      option.bytes ++ rest.drop (len.len head).toNat = head.bytes ++ rest ∧
        option.bytes.length = head.bytes.length + (len.len head).toNat := by
  have valueLength := List.length_take_of_le available
  refine ⟨⟨head, rest.take (len.len head).toNat, valueLength⟩, ?_, ?_⟩
  · rw [FramedOption.bytes, List.append_assoc, List.take_append_drop]
  · rw [FramedOption.bytes, List.length_append, valueLength]

theorem FramedOption.bytes_length_le (option : FramedOption len) :
    option.bytes.length ≤ maxOptionBytes := by
  have headBound := option.head.bytes_length_le
  have valueBound := (len.len option.head).toNat_lt
  rw [bytes, List.length_append, option.value_length]
  unfold maxOptionBytes
  omega

/-- The bytes of a sequence of options. -/
def framedBytes (options : List (FramedOption len)) : Bytes :=
  (options.map FramedOption.bytes).flatten

@[simp]
theorem framedBytes_nil : framedBytes ([] : List (FramedOption len)) = [] :=
  rfl

@[simp]
theorem framedBytes_cons (option : FramedOption len)
    (options : List (FramedOption len)) :
    framedBytes (option :: options) = option.bytes ++ framedBytes options :=
  rfl

theorem framedBytes_length_le (options : List (FramedOption len)) :
    (framedBytes options).length ≤ options.length * maxOptionBytes := by
  induction options with
  | nil =>
      simp
  | cons option options inductionHypothesis =>
      have first := option.bytes_length_le
      rw [framedBytes_cons, List.length_append, List.length_cons,
        Nat.add_mul]
      omega

variable (delta)

/-- What a parser makes of an option in front of `after`. -/
def FramedOption.parsed (number : UInt8) (option : FramedOption len)
    (after : Bytes) : OCoapOption where
  delta := (delta.delta option.head).toUInt16
  len := len.len option.head
  value := if len.len option.head = 0 then [] else option.value ++ after
  optionNumber := number + delta.delta option.head

/-- What a parser makes of a sequence of options. -/
def parsedOptions : UInt8 → List (FramedOption len) → Bytes → List OCoapOption
  | _, [], _ => []
  | number, option :: options, after =>
      option.parsed delta number (framedBytes options ++ after) ::
        parsedOptions (number + delta.delta option.head) options after

/-- The running option number behind a sequence of options. -/
def numberAfter (number : UInt8) (options : List (FramedOption len)) : UInt8 :=
  options.foldl (fun number option => number + delta.delta option.head) number

theorem optionsWalk_cons (option : FramedOption len) {slots left : Nat}
    (positive : 0 < left) (number : UInt8) (p : Bytes) :
    optionsWalk delta len (slots + 1) left number (option.bytes ++ p) = (do
      let options ←
        optionsWalk delta len slots (left - option.bytes.length)
          (number + delta.delta option.head) p
      .ok (option.parsed delta number p :: options)) := by
  have dropped :
      (option.value ++ p).drop (len.len option.head).toNat = p := by
    rw [← option.value_length, List.drop_left]
  have advanced :
      left - (option.head.bytes.length + (len.len option.head).toNat) =
        left - option.bytes.length := by
    rw [FramedOption.bytes, List.length_append, option.value_length]
  rw [optionsWalk, if_pos positive, FramedOption.bytes, List.append_assoc,
    optionHead_bytes, outcome_ok_bind]
  simp only [headBytes_toNat, dropped, advanced]
  rfl

theorem optionsWalk_append (options : List (FramedOption len))
    {slots left : Nat} (fits : options.length ≤ slots)
    (inside : (framedBytes options).length ≤ left) (number : UInt8)
    (p : Bytes) :
    optionsWalk delta len slots left number (framedBytes options ++ p) = (do
      let rest ←
        optionsWalk delta len (slots - options.length)
          (left - (framedBytes options).length)
          (numberAfter delta number options) p
      .ok (parsedOptions delta number options p ++ rest)) := by
  induction options generalizing slots left number with
  | nil =>
      change
        optionsWalk delta len slots left number p =
          (optionsWalk delta len slots left number p >>= fun rest => .ok rest)
      cases optionsWalk delta len slots left number p with
      | error fault =>
          rfl
      | ok rest =>
          rfl
  | cons option options inductionHypothesis =>
      obtain ⟨slots, rfl⟩ : ∃ fewer, slots = fewer + 1 := by
        rw [List.length_cons] at fits
        exact ⟨slots - 1, by omega⟩
      have positive := option.bytes_length_pos
      rw [framedBytes_cons, List.length_append] at inside
      rw [List.length_cons] at fits
      rw [framedBytes_cons, List.append_assoc,
        optionsWalk_cons delta option (by omega),
        inductionHypothesis (by omega) (by omega), List.length_append,
        List.length_cons, Nat.add_sub_add_right, Nat.sub_sub]
      unfold numberAfter
      rw [List.foldl_cons]
      cases optionsWalk delta len (slots - options.length)
          (left - (option.bytes.length + (framedBytes options).length))
          (options.foldl
            (fun number option => number + delta.delta option.head)
            (number + delta.delta option.head)) p with
      | error fault =>
          rfl
      | ok rest =>
          rfl

theorem optionsWalk_zero (slots : Nat) (number : UInt8) (p : Bytes) :
    optionsWalk delta len slots 0 number p = .ok [] := by
  cases slots with
  | zero =>
      rfl
  | succ slots =>
      rfl

/-- A sequence of options that fills the option bytes. -/
theorem optionsWalk_framed (options : List (FramedOption len)) {slots : Nat}
    (fits : options.length ≤ slots) (number : UInt8) (p : Bytes) :
    optionsWalk delta len slots (framedBytes options).length number
        (framedBytes options ++ p) =
      .ok (parsedOptions delta number options p) := by
  rw [optionsWalk_append delta options fits (Nat.le_refl _), Nat.sub_self,
    optionsWalk_zero, outcome_ok_bind, List.append_nil]

theorem parsedOptions_concat (number : UInt8)
    (options : List (FramedOption len)) (last : FramedOption len)
    (after : Bytes) :
    parsedOptions delta number (options ++ [last]) after =
      parsedOptions delta number options (last.bytes ++ after) ++
        [last.parsed delta (numberAfter delta number options) after] := by
  induction options generalizing number with
  | nil =>
      rfl
  | cons option options inductionHypothesis =>
      have bytes :
          framedBytes (options ++ [last]) =
            framedBytes options ++ last.bytes := by
        simp [framedBytes]
      rw [List.cons_append, parsedOptions, parsedOptions,
        inductionHypothesis, bytes, List.append_assoc]
      rfl

/-- A sequence of options of which the last one reaches behind the option
bytes. -/
theorem optionsWalk_overrun (options : List (FramedOption len))
    (last : FramedOption len) {slots left : Nat}
    (fits : options.length < slots)
    (inside : (framedBytes options).length < left)
    (overrun : left ≤ (framedBytes options).length + last.bytes.length)
    (number : UInt8) (p : Bytes) :
    optionsWalk delta len slots left number
        (framedBytes options ++ (last.bytes ++ p)) =
      .ok (parsedOptions delta number (options ++ [last]) p) := by
  obtain ⟨fewer, enough⟩ :
      ∃ fewer, slots - options.length = fewer + 1 :=
    ⟨slots - options.length - 1, by omega⟩
  rw [optionsWalk_append delta options (Nat.le_of_lt fits)
      (Nat.le_of_lt inside), enough,
    optionsWalk_cons delta last (Nat.sub_pos_of_lt inside),
    Nat.sub_eq_zero_of_le (by omega), optionsWalk_zero, outcome_ok_bind,
    outcome_ok_bind, parsedOptions_concat]

/-- Without a slot left, the walk returns at its end only. -/
theorem optionsWalk_no_slot_eq_ok {left : Nat} {number : UInt8} {p : Bytes}
    {options : List OCoapOption} :
    optionsWalk delta len 0 left number p = .ok options ↔
      left = 0 ∧ options = [] := by
  rw [optionsWalk]
  by_cases positive : 0 < left
  · rw [if_pos positive, outcome_bind_eq_ok]
    constructor
    · intro walked
      obtain ⟨_, _, impossible⟩ := walked
      cases impossible
    · intro ended
      exact absurd ended.1 (Nat.ne_of_gt positive)
  · rw [if_neg positive, Except.ok.injEq]
    constructor
    · intro none
      exact ⟨Nat.eq_zero_of_not_pos positive, none.symm⟩
    · intro ended
      exact ended.2.symm

/-- An option in front of the bytes left is complete or reaches behind them. -/
theorem optionsWalk_succ_eq_ok {slots left : Nat} {number : UInt8} {p : Bytes}
    {options : List OCoapOption} :
    optionsWalk delta len (slots + 1) left number p = .ok options ↔
      (left = 0 ∧ options = []) ∨
        (0 < left ∧ ∃ head rest others,
          p = EncodedHead.bytes head ++ rest ∧
            optionsWalk delta len slots
                (left - (head.bytes.length + (len.len head).toNat))
                (number + delta.delta head)
                (rest.drop (len.len head).toNat) = .ok others ∧
            options =
              { delta := (delta.delta head).toUInt16
                len := len.len head
                value := if len.len head = 0 then [] else rest
                optionNumber := number + delta.delta head } :: others) := by
  rw [optionsWalk]
  by_cases positive : 0 < left
  · rw [if_pos positive]
    simp only [outcome_bind_eq_ok, optionHead_eq_ok, Except.ok.injEq]
    constructor
    · intro walked
      obtain ⟨head, ⟨encoded, same, headerLen, deltaIs, lenIs⟩, others,
        walked, isOptions⟩ := walked
      refine
        Or.inr ⟨positive, encoded, head.rest, others, same, ?_, ?_⟩
      · rwa [headerLen, headBytes_toNat, deltaIs, lenIs] at walked
      · rw [← isOptions, deltaIs, lenIs]
    · intro described
      rcases described with ⟨empty, _⟩ | ⟨_, encoded, rest, others, same,
        walked, isOptions⟩
      · omega
      · refine
          ⟨⟨UInt8.ofNat encoded.bytes.length, delta.delta encoded,
            len.len encoded, rest⟩, ⟨encoded, same, rfl, rfl, rfl⟩, others,
            ?_, isOptions.symm⟩
        rwa [headBytes_toNat]
  · rw [if_neg positive, Except.ok.injEq]
    constructor
    · intro none
      exact Or.inl ⟨by omega, none.symm⟩
    · intro described
      rcases described with ⟨_, none⟩ | ⟨positive', _⟩
      · exact none.symm
      · exact absurd positive' positive

end Framed

end UoscoreUedhoc.Oscore

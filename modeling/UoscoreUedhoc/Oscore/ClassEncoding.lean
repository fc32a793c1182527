import UoscoreUedhoc.Coap.Message
import UoscoreUedhoc.Oscore.PacketWriting

/-!
# Encoding the options of one class

`encode_options` tests the class of the difference to the option it has encoded
last where it should test that of the option number, and `encoded_option_len`
adds up the extension bytes of the deltas of the list.  So the two work where
each difference is of the class of its number and takes as many bytes as the
delta.
-/

namespace UoscoreUedhoc.Oscore

open UoscoreUedhoc
open UoscoreUedhoc.Coap

/-! ## The property -/

/-- The options behind those with the number `number`, with their absolute
numbers. -/
def absoluteOptions : Nat → List OCoapOption → List (Nat × Bytes)
  | _, [] => []
  | number, option :: options =>
      (number + option.delta.toNat, option.value.take option.len.toNat) ::
        absoluteOptions (number + option.delta.toNat) options

/-- The encoder returns `ok` and fills its buffer with the encoding of the
options whose numbers belong to the class. -/
def EncodesClass (cls : OptionClass) (belongs : UInt16 → Bool)
    (options : List OCoapOption) : Prop :=
  ∃ (bytes : Bytes) (selected : List MessageOption),
    Oscore.encodeOptions cls 0 (encodedOptionLen cls 0 options) options =
        .ok bytes ∧
      bytes.length = encodedOptionLen cls 0 options ∧
      (selected.map fun option => (option.number, option.value)) =
        ((absoluteOptions 0 options).filter fun option =>
          belongs (UInt16.ofNat option.1)) ∧
      bytes = optionBytes (Coap.encodeOptions 0 selected)

/-- The class that an option number has in OSCORE. -/
def isOfClass : OptionClass → UInt16 → Bool
  | .u, number => !isClassE number
  | .i, _ => false
  | .e, number => isClassE number

/-! ## The condition -/

/-- Behind an encoded option with the number `previous`, each option number and
its difference to the one encoded before are both of class E or both not, and
for an option of class E the difference takes as many extension bytes as the
delta. -/
def DifferencesFit : Nat → Nat → List OCoapOption → Prop
  | _, _, [] => True
  | previous, number, option :: options =>
      let next := number + option.delta.toNat
      let difference := UInt16.ofNat (next - previous)
      isClassE difference = isClassE (UInt16.ofNat next) ∧
        if isClassE (UInt16.ofNat next) then
          optionFieldLen difference = optionFieldLen option.delta ∧
            DifferencesFit next next options
        else
          DifferencesFit previous next options

instance decidableDifferencesFit :
    (previous number : Nat) → (options : List OCoapOption) →
      Decidable (DifferencesFit previous number options)
  | _, _, [] => instDecidableTrue
  | previous, number, option :: options =>
      have _ := decidableDifferencesFit (number + option.delta.toNat)
        (number + option.delta.toNat) options
      have _ := decidableDifferencesFit previous
        (number + option.delta.toNat) options
      inferInstanceAs (Decidable
        (isClassE
              (UInt16.ofNat (number + option.delta.toNat - previous)) =
            isClassE (UInt16.ofNat (number + option.delta.toNat)) ∧
          if isClassE (UInt16.ofNat (number + option.delta.toNat)) then
            optionFieldLen
                (UInt16.ofNat (number + option.delta.toNat - previous)) =
                optionFieldLen option.delta ∧
              DifferencesFit (number + option.delta.toNat)
                (number + option.delta.toNat) options
          else
            DifferencesFit previous (number + option.delta.toNat) options))

/-- The condition for each class: the encoder finds no option of class U. -/
def ClassEncodable (options : List OCoapOption) : OptionClass → Prop
  | .u =>
      ∀ option ∈ absoluteOptions 0 options,
        isClassE (UInt16.ofNat option.1) = true
  | .i => True
  | .e => DifferencesFit 0 0 options

/-! ## Heads -/

theorem encodedNibble_eq (value : UInt16) :
    encodedNibble value = nibbleOf value.toNat := by
  unfold encodedNibble nibbleOf
  simp only [UInt16.lt_iff_toNat_lt, UInt16.reduceToNat]
  split
  · apply UInt8.toNat_inj.mp
    rw [UInt16.toNat_toUInt8, UInt8.toNat_ofNat']
  · rfl

theorem encodedExtension_eq (value : UInt16) :
    encodedExtension value = extensionOf value.toNat := by
  unfold encodedExtension extensionOf
  simp only [UInt16.lt_iff_toNat_lt, UInt16.reduceToNat]
  split
  · rfl
  · rename_i notSmall
    split
    · have above : (13 : UInt16) ≤ value := by
        rw [UInt16.le_iff_toNat_le]
        simpa using notSmall
      have low : (value - 13).toUInt8 = UInt8.ofNat (value.toNat - 13) := by
        apply UInt8.toNat_inj.mp
        rw [UInt16.toNat_toUInt8, UInt16.toNat_sub_of_le _ _ above,
          UInt8.toNat_ofNat']
        rfl
      rw [low]
    · rename_i notMedium
      have above : (269 : UInt16) ≤ value := by
        rw [UInt16.le_iff_toNat_le]
        simpa using notMedium
      have difference : (value - 269).toNat = value.toNat - 269 :=
        UInt16.toNat_sub_of_le _ _ above
      have high :
          ((value - 269) >>> 8).toUInt8 =
            UInt8.ofNat ((value.toNat - 269) / 256) := by
        apply UInt8.toNat_inj.mp
        rw [UInt16.toNat_toUInt8, UInt16.toNat_shiftRight, difference,
          UInt8.toNat_ofNat', Nat.shiftRight_eq_div_pow]
        rfl
      have low :
          (value - 269).toUInt8 = UInt8.ofNat (value.toNat - 269) := by
        apply UInt8.toNat_inj.mp
        rw [UInt16.toNat_toUInt8, difference, UInt8.toNat_ofNat']
      rw [high, low]

/-- The header that `encode_options` writes. -/
theorem encodedHeader_eq (delta : UInt16) (len : UInt8) :
    ((encodedNibble delta <<< 4) ||| encodedNibble len.toUInt16) ::
        (encodedExtension delta ++ encodedExtension len.toUInt16) =
      (EncodedHead.encode delta.toNat len.toNat).bytes := by
  rw [encodedNibble_eq, encodedNibble_eq, encodedExtension_eq,
    encodedExtension_eq, UInt8.toNat_toUInt16]
  rfl

theorem optionFieldLen_eq (value : UInt16) :
    optionFieldLen value = (extensionOf value.toNat).length := by
  rw [← encodedExtension_eq]
  unfold optionFieldLen encodedExtension
  split
  · rfl
  · split
    · rfl
    · rfl

theorem head_encode_length (delta : UInt16) (len : UInt8) :
    (EncodedHead.encode delta.toNat len.toNat).bytes.length =
      1 + optionFieldLen delta + optionFieldLen len.toUInt16 := by
  rw [optionFieldLen_eq, optionFieldLen_eq, UInt8.toNat_toUInt16]
  simp only [EncodedHead.bytes, EncodedHead.encode, List.length_cons,
    List.length_append]
  omega

theorem optionFieldLen_mono {shorter longer : UInt16}
    (atMost : shorter ≤ longer) :
    optionFieldLen shorter ≤ optionFieldLen longer := by
  unfold optionFieldLen
  simp only [UInt16.lt_iff_toNat_lt, UInt16.le_iff_toNat_le] at atMost ⊢
  split_ifs <;> omega

/-! ## Options by number and value -/

/-- The encoding of options behind one with the number `previous`. -/
def numberedBytes : Nat → List (Nat × Bytes) → Bytes
  | _, [] => []
  | previous, (number, value) :: options =>
      (EncodedHead.encode (number - previous) value.length).bytes ++
        (value ++ numberedBytes number options)

theorem optionBytes_encodeOptions (previous : Nat)
    (options : List MessageOption) :
    optionBytes (Coap.encodeOptions previous options) =
      numberedBytes previous
        (options.map fun option => (option.number, option.value)) := by
  induction options generalizing previous with
  | nil =>
      rfl
  | cons option options inductionHypothesis =>
      have rest := inductionHypothesis option.number
      unfold optionBytes at rest ⊢
      rw [Coap.encodeOptions, List.map_cons, List.flatten_cons, rest,
        List.map_cons, numberedBytes, EncodedOption.bytes, List.append_assoc]
      rfl

theorem exists_messageOptions {options : List (Nat × Bytes)}
    (small : ∀ option ∈ options,
      option.1 < 2 ^ 16 ∧ option.2.length < valueBound) :
    ∃ selected : List MessageOption,
      (selected.map fun option => (option.number, option.value)) =
        options := by
  induction options with
  | nil =>
      exact ⟨[], rfl⟩
  | cons option options inductionHypothesis =>
      obtain ⟨isSmall, others⟩ := List.forall_mem_cons.mp small
      obtain ⟨selected, same⟩ := inductionHypothesis others
      refine ⟨⟨option.1, option.2, isSmall.1, isSmall.2⟩ :: selected, ?_⟩
      rw [List.map_cons, same]

/-- Encodings that begin alike begin with the same delta. -/
theorem encode_append_delta {delta other length otherLength : Nat}
    (deltaSmall : delta < 2 ^ 16) (otherSmall : other < 2 ^ 16)
    {rest otherRest : Bytes}
    (same :
      (EncodedHead.encode delta length).bytes ++ rest =
        (EncodedHead.encode other otherLength).bytes ++ otherRest) :
    delta = other := by
  have heads :=
    congrArg EncodedHead.delta (EncodedHead.bytes_append_inj same).1
  rwa [EncodedHead.delta_encode (by unfold valueBound; omega),
    EncodedHead.delta_encode (by unfold valueBound; omega)] at heads

theorem encode_append_ne_nil (delta length : Nat) (rest : Bytes) :
    (EncodedHead.encode delta length).bytes ++ rest ≠ [] := by
  intro empty
  have positive := (EncodedHead.encode delta length).bytes_length_pos
  have lengths := congrArg List.length empty
  rw [List.length_append, List.length_nil] at lengths
  omega

/-! ## What the encoder writes for class E -/

/-- The options of class E with their absolute numbers. -/
def absoluteClassE (number : Nat) (options : List OCoapOption) :
    List (Nat × Bytes) :=
  (absoluteOptions number options).filter fun option =>
    isClassE (UInt16.ofNat option.1)

theorem absoluteClassE_cons (number : Nat) (option : OCoapOption)
    (options : List OCoapOption) :
    absoluteClassE number (option :: options) =
      if isClassE (UInt16.ofNat (number + option.delta.toNat)) then
        (number + option.delta.toNat, option.value.take option.len.toNat) ::
          absoluteClassE (number + option.delta.toNat) options
      else
        absoluteClassE (number + option.delta.toNat) options :=
  List.filter_cons

/-- The bytes of `encode_options` for class E, where the options in front have
the number `number` and the last encoded one `previous`. -/
def classEWritten : Nat → Nat → List OCoapOption → Bytes
  | _, _, [] => []
  | previous, number, option :: options =>
      let next := number + option.delta.toNat
      if isClassE (UInt16.ofNat (next - previous)) then
        (EncodedHead.encode (next - previous) option.len.toNat).bytes ++
          (option.value.take option.len.toNat ++
            classEWritten next next options)
      else
        classEWritten previous next options

/-- The last of the numbers. -/
def lastNumber (number : Nat) (options : List OCoapOption) : Nat :=
  number + (options.map fun option => option.delta.toNat).sum

theorem lastNumber_cons (number : Nat) (option : OCoapOption)
    (options : List OCoapOption) :
    lastNumber number (option :: options) =
      lastNumber (number + option.delta.toNat) options := by
  rw [lastNumber, lastNumber, List.map_cons, List.sum_cons, Nat.add_assoc]

theorem le_lastNumber (number : Nat) (options : List OCoapOption) :
    number ≤ lastNumber number options :=
  Nat.le_add_right _ _

theorem ofNat_add_delta (number : Nat) (delta : UInt16) :
    UInt16.ofNat number + delta = UInt16.ofNat (number + delta.toNat) := by
  rw [UInt16.ofNat_add, UInt16.ofNat_toNat]

section Written

variable {options : List OCoapOption} {previous number : Nat}

/-- An option that is encoded in front of others, which write `written`. -/
theorem encodedThen_eq_ok {capacity len : Nat}
    {header value written bytes : Bytes} {others : Outcome Bytes}
    (hasValue : len ≤ value.length)
    (rest : ∀ encoded, others = .ok encoded ↔
      written.length ≤ capacity - header.length - len ∧ encoded = written) :
    (if capacity < header.length then
          undefinedBehaviour
        else do
          let value ← memcpyS (capacity - header.length) value len
          let rest ← others
          .ok (header ++ value ++ rest)) = .ok bytes ↔
      (header ++ (value.take len ++ written)).length ≤ capacity ∧
        bytes = header ++ (value.take len ++ written) := by
  rw [List.length_append, List.length_append, List.length_take_of_le hasValue]
  by_cases cut : capacity < header.length
  · rw [if_pos cut]
    constructor
    · intro impossible
      cases impossible
    · intro fits
      omega
  · rw [if_neg cut]
    simp only [outcome_bind_eq_ok, memcpyS_eq_ok, Except.ok.injEq]
    constructor
    · intro done
      obtain ⟨_, ⟨valueFits, _, rfl⟩, encoded, ran, rfl⟩ := done
      obtain ⟨othersFit, rfl⟩ := (rest _).mp ran
      exact ⟨by omega, by rw [List.append_assoc]⟩
    · intro fits
      obtain ⟨room, rfl⟩ := fits
      refine
        ⟨_, ⟨by omega, hasValue, rfl⟩, _, (rest _).mpr ⟨by omega, rfl⟩, ?_⟩
      rw [List.append_assoc]

theorem encodeOptions_e_eq_ok {capacity : Nat} {bytes : Bytes}
    (values : HasValues options) (behind : previous ≤ number)
    (narrow : lastNumber number options < 2 ^ 16) :
    Oscore.encodeOptions .e (UInt16.ofNat (number - previous)) capacity
        options = .ok bytes ↔
      (classEWritten previous number options).length ≤ capacity ∧
        bytes = classEWritten previous number options := by
  induction options generalizing previous number capacity bytes with
  | nil =>
      rw [Oscore.encodeOptions, classEWritten, Except.ok.injEq]
      simp [eq_comm]
  | cons option options inductionHypothesis =>
      obtain ⟨hasValue, otherValues⟩ := List.forall_mem_cons.mp values
      rw [lastNumber_cons] at narrow
      have next := le_lastNumber (number + option.delta.toNat) options
      have sum :
          UInt16.ofNat (number - previous) + option.delta =
            UInt16.ofNat (number + option.delta.toNat - previous) := by
        rw [ofNat_add_delta]
        congr 1
        omega
      have difference :
          (UInt16.ofNat (number + option.delta.toNat - previous)).toNat =
            number + option.delta.toNat - previous :=
        UInt16.toNat_ofNat_of_lt' (by
          change _ < 65536
          omega)
      have header :=
        encodedHeader_eq
          (UInt16.ofNat (number + option.delta.toNat - previous)) option.len
      rw [difference] at header
      rw [Oscore.encodeOptions, classEWritten]
      dsimp only
      rw [UInt16.add_comm, sum]
      change
        (if isClassE
            (UInt16.ofNat (number + option.delta.toNat - previous)) = true then
          _ else _) = _ ↔ _
      by_cases isE :
          isClassE
            (UInt16.ofNat (number + option.delta.toNat - previous)) = true
      · rw [if_pos isE, if_pos isE, header]
        apply encodedThen_eq_ok hasValue
        intro encoded
        have rest :=
          @inductionHypothesis (number + option.delta.toNat)
            (number + option.delta.toNat)
            (capacity -
                (EncodedHead.encode (number + option.delta.toNat - previous)
                  option.len.toNat).bytes.length - option.len.toNat)
            encoded otherValues (Nat.le_refl _) narrow
        rw [Nat.sub_self] at rest
        exact rest
      · rw [if_neg isE, if_neg isE]
        exact inductionHypothesis otherValues (by omega) narrow

/-- The encoder writes nothing, or begins with a difference of class E. -/
theorem classEWritten_front (behind : previous ≤ number)
    (narrow : lastNumber number options < 2 ^ 16) :
    classEWritten previous number options = [] ∨
      ∃ difference length rest,
        difference < 2 ^ 16 ∧ isClassE (UInt16.ofNat difference) = true ∧
          classEWritten previous number options =
            (EncodedHead.encode difference length).bytes ++ rest := by
  induction options generalizing number with
  | nil =>
      exact Or.inl rfl
  | cons option options inductionHypothesis =>
      rw [lastNumber_cons] at narrow
      have next := le_lastNumber (number + option.delta.toNat) options
      rw [classEWritten]
      split
      · rename_i isE
        exact Or.inr ⟨_, _, _, by omega, isE, rfl⟩
      · exact inductionHypothesis (by omega) narrow

/-- The encoding of the options of class E is empty, or begins with the
difference to a number of class E. -/
theorem numberedBytes_front (narrow : lastNumber number options < 2 ^ 16) :
    numberedBytes previous (absoluteClassE number options) = [] ∨
      ∃ next length rest, number ≤ next ∧ next < 2 ^ 16 ∧
        isClassE (UInt16.ofNat next) = true ∧
          numberedBytes previous (absoluteClassE number options) =
            (EncodedHead.encode (next - previous) length).bytes ++ rest := by
  induction options generalizing number with
  | nil =>
      exact Or.inl rfl
  | cons option options inductionHypothesis =>
      rw [lastNumber_cons] at narrow
      have next := le_lastNumber (number + option.delta.toNat) options
      rw [absoluteClassE_cons]
      by_cases isE :
          isClassE (UInt16.ofNat (number + option.delta.toNat)) = true
      · rw [if_pos isE]
        exact Or.inr ⟨_, _, _, by omega, by omega, isE, rfl⟩
      · rw [if_neg isE]
        rcases inductionHypothesis narrow with
          empty | ⟨first, length, rest, above, small, firstIsE, isBytes⟩
        · exact Or.inl empty
        · exact
            Or.inr ⟨first, length, rest, by omega, small, firstIsE, isBytes⟩

/-- The encoder does not begin with a difference that is not of class E. -/
theorem classEWritten_ne_encode {difference : Nat}
    (behind : previous ≤ number) (narrow : lastNumber number options < 2 ^ 16)
    (small : difference < 2 ^ 16)
    (notE : isClassE (UInt16.ofNat difference) = false) (length : Nat)
    (others : Bytes) :
    classEWritten previous number options ≠
      (EncodedHead.encode difference length).bytes ++ others := by
  intro written
  rcases @classEWritten_front options previous number behind narrow with
    empty | ⟨first, firstLength, rest, firstSmall, firstIsE, isBytes⟩
  · rw [empty] at written
    exact encode_append_ne_nil _ _ _ written.symm
  · rw [isBytes] at written
    have isDifference := encode_append_delta firstSmall small written
    rw [isDifference, notE] at firstIsE
    cases firstIsE

/-- The encoding of the options of class E does not begin with another
option. -/
theorem numberedBytes_ne_encode (behind : previous ≤ number)
    (narrow : lastNumber number options < 2 ^ 16)
    (notE : isClassE (UInt16.ofNat number) = false) (length : Nat)
    (others : Bytes) :
    numberedBytes previous (absoluteClassE number options) ≠
      (EncodedHead.encode (number - previous) length).bytes ++ others := by
  intro written
  have next := le_lastNumber number options
  rcases @numberedBytes_front options previous number narrow with
    empty | ⟨first, firstLength, rest, above, small, firstIsE, isBytes⟩
  · rw [empty] at written
    exact encode_append_ne_nil _ _ _ written.symm
  · rw [isBytes] at written
    have isFirst : first = number := by
      have differences :=
        encode_append_delta (by omega) (by omega) written
      omega
    rw [isFirst, notE] at firstIsE
    cases firstIsE

/-- One step of `encoded_option_len` for class E. -/
theorem encodedOptionLen_e_cons (number : Nat) (option : OCoapOption)
    (options : List OCoapOption) :
    encodedOptionLen .e (UInt16.ofNat number) (option :: options) =
      if isClassE (UInt16.ofNat (number + option.delta.toNat)) then
        1 + optionFieldLen option.delta + optionFieldLen option.len.toUInt16 +
            option.len.toNat +
          encodedOptionLen .e (UInt16.ofNat (number + option.delta.toNat))
            options
      else
        encodedOptionLen .e (UInt16.ofNat (number + option.delta.toNat))
          options := by
  rw [encodedOptionLen]
  rw [ofNat_add_delta]
  rfl

/-- An option with this difference in front of others. -/
theorem encode_append_length {difference : Nat} {option : OCoapOption}
    (small : difference < 2 ^ 16)
    (hasValue : option.len.toNat ≤ option.value.length) (rest : Bytes) :
    ((EncodedHead.encode difference option.len.toNat).bytes ++
        (option.value.take option.len.toNat ++ rest)).length =
      1 + optionFieldLen (UInt16.ofNat difference) +
          optionFieldLen option.len.toUInt16 + option.len.toNat +
        rest.length := by
  have length :=
    head_encode_length (UInt16.ofNat difference) option.len
  rw [UInt16.toNat_ofNat_of_lt' small] at length
  rw [List.length_append, List.length_append, length,
    List.length_take_of_le hasValue]
  omega

/-- A delta is never larger than the difference that is encoded for it. -/
theorem optionFieldLen_delta_le {option : OCoapOption}
    (behind : previous ≤ number)
    (small : number + option.delta.toNat - previous < 2 ^ 16) :
    optionFieldLen option.delta ≤
      optionFieldLen
        (UInt16.ofNat (number + option.delta.toNat - previous)) := by
  apply optionFieldLen_mono
  rw [UInt16.le_iff_toNat_le, UInt16.toNat_ofNat_of_lt' small]
  omega

theorem encodedOptionLen_le (values : HasValues options)
    (behind : previous ≤ number)
    (narrow : lastNumber number options < 2 ^ 16) :
    encodedOptionLen .e (UInt16.ofNat number) options ≤
      (numberedBytes previous (absoluteClassE number options)).length := by
  induction options generalizing previous number with
  | nil =>
      exact Nat.zero_le _
  | cons option options inductionHypothesis =>
      obtain ⟨hasValue, otherValues⟩ := List.forall_mem_cons.mp values
      rw [lastNumber_cons] at narrow
      have next := le_lastNumber (number + option.delta.toNat) options
      rw [encodedOptionLen_e_cons, absoluteClassE_cons]
      split
      · have rest :=
          @inductionHypothesis (number + option.delta.toNat)
            (number + option.delta.toNat) otherValues (Nat.le_refl _) narrow
        have small : number + option.delta.toNat - previous < 2 ^ 16 := by
          omega
        have field := optionFieldLen_delta_le behind small
        rw [numberedBytes, List.length_take_of_le hasValue,
          encode_append_length small hasValue]
        omega
      · exact inductionHypothesis otherValues (by omega) narrow

/-- The differences fit exactly where the encoder selects the options of class E
and their deltas are counted right. -/
theorem differencesFit_iff (values : HasValues options)
    (behind : previous ≤ number)
    (narrow : lastNumber number options < 2 ^ 16) :
    DifferencesFit previous number options ↔
      classEWritten previous number options =
          numberedBytes previous (absoluteClassE number options) ∧
        encodedOptionLen .e (UInt16.ofNat number) options =
          (numberedBytes previous (absoluteClassE number options)).length := by
  induction options generalizing previous number with
  | nil =>
      exact iff_of_true trivial ⟨rfl, rfl⟩
  | cons option options inductionHypothesis =>
      obtain ⟨hasValue, otherValues⟩ := List.forall_mem_cons.mp values
      rw [lastNumber_cons] at narrow
      have next := le_lastNumber (number + option.delta.toNat) options
      have small : number + option.delta.toNat - previous < 2 ^ 16 := by
        omega
      rw [DifferencesFit, classEWritten, absoluteClassE_cons,
        encodedOptionLen_e_cons]
      cases isE : isClassE (UInt16.ofNat (number + option.delta.toNat)) with
      | true =>
          have rest :=
            @inductionHypothesis (number + option.delta.toNat)
              (number + option.delta.toNat) otherValues (Nat.le_refl _) narrow
          have predicted :=
            @encodedOptionLen_le options (number + option.delta.toNat)
              (number + option.delta.toNat) otherValues (Nat.le_refl _) narrow
          have field := optionFieldLen_delta_le behind small
          simp only [if_true]
          rw [numberedBytes, List.length_take_of_le hasValue, rest]
          cases same :
              isClassE
                (UInt16.ofNat (number + option.delta.toNat - previous)) with
          | true =>
              simp only [if_true, true_and]
              rw [encode_append_length small hasValue]
              constructor
              · intro fits
                obtain ⟨sameField, written, counted⟩ := fits
                rw [written, counted, sameField]
                exact ⟨rfl, rfl⟩
              · intro encodes
                obtain ⟨written, counted⟩ := encodes
                have others :=
                  List.append_cancel_left (List.append_cancel_left written)
                exact ⟨by omega, others, by omega⟩
          | false =>
              -- the encoder skips the option, which has to come first
              simp only [Bool.false_eq_true, false_and, if_false, false_iff]
              intro encodes
              exact
                classEWritten_ne_encode (by omega) narrow small same _ _
                  encodes.1
      | false =>
          cases same :
              isClassE
                (UInt16.ofNat (number + option.delta.toNat - previous)) with
          | true =>
              -- the encoder writes an option that is not of class E
              simp only [Bool.true_eq_false, Bool.false_eq_true, false_and,
                if_false, if_true, false_iff]
              intro encodes
              exact
                numberedBytes_ne_encode (by omega) narrow isE _ _
                  encodes.1.symm
          | false =>
              simp only [Bool.false_eq_true, if_false, true_and]
              exact inductionHypothesis otherValues (by omega) narrow

end Written

/-! ## Exactly the options that are encoded -/

theorem absoluteOptions_small {number : Nat} {options : List OCoapOption}
    (narrow : lastNumber number options < 2 ^ 16) :
    ∀ option ∈ absoluteOptions number options,
      option.1 < 2 ^ 16 ∧ option.2.length < valueBound := by
  induction options generalizing number with
  | nil =>
      intro option member
      cases member
  | cons first options inductionHypothesis =>
      rw [lastNumber_cons] at narrow
      have next := le_lastNumber (number + first.delta.toNat) options
      intro option member
      rcases List.mem_cons.mp member with rfl | later
      · have bound := first.len.toNat_lt
        have shorter := List.length_take_le first.len.toNat first.value
        have narrowValue :
            (first.value.take first.len.toNat).length < valueBound := by
          unfold valueBound
          omega
        exact ⟨by omega, narrowValue⟩
      · exact inductionHypothesis narrow option later

/-- Where the encoder writes nothing and predicts nothing, no option may belong
to the class. -/
theorem encodesClass_none {cls : OptionClass} {belongs : UInt16 → Bool}
    {options : List OCoapOption}
    (predicts : encodedOptionLen cls 0 options = 0)
    (writes : ∀ capacity,
      Oscore.encodeOptions cls 0 capacity options = .ok []) :
    EncodesClass cls belongs options ↔
      ∀ option ∈ absoluteOptions 0 options,
        belongs (UInt16.ofNat option.1) = false := by
  constructor
  · intro encodes
    obtain ⟨bytes, selected, encoded, _, isSelected, isBytes⟩ := encodes
    rw [writes, Except.ok.injEq] at encoded
    rw [← encoded, optionBytes_encodeOptions, isSelected] at isBytes
    cases filtered :
        (absoluteOptions 0 options).filter fun option =>
          belongs (UInt16.ofNat option.1) with
    | nil =>
        intro option member
        simpa using List.filter_eq_nil_iff.mp filtered option member
    | cons first others =>
        rw [filtered, numberedBytes] at isBytes
        exact absurd isBytes.symm (encode_append_ne_nil _ _ _)
  · intro none
    have filtered :
        ((absoluteOptions 0 options).filter fun option =>
          belongs (UInt16.ofNat option.1)) = [] := by
      rw [List.filter_eq_nil_iff]
      intro option member
      simpa using none option member
    exact ⟨[], [], writes _, predicts.symm, filtered.symm, rfl⟩

theorem encodedOptionLen_u (totalDelta : UInt16)
    (options : List OCoapOption) :
    encodedOptionLen .u totalDelta options = 0 := by
  induction options generalizing totalDelta with
  | nil =>
      rfl
  | cons option options inductionHypothesis =>
      simp [encodedOptionLen, optionBelongsToClass, inductionHypothesis]

theorem encodeOptions_u (skippedDelta : UInt16) (capacity : Nat)
    (options : List OCoapOption) :
    Oscore.encodeOptions .u skippedDelta capacity options = .ok [] := by
  induction options generalizing skippedDelta with
  | nil =>
      rfl
  | cons option options inductionHypothesis =>
      simp [Oscore.encodeOptions, optionBelongsToClass, inductionHypothesis]

theorem encodesClass_e_iff {options : List OCoapOption}
    (values : HasValues options)
    (narrow : lastNumber 0 options < 2 ^ 16) :
    EncodesClass .e isClassE options ↔ DifferencesFit 0 0 options := by
  rw [differencesFit_iff values (Nat.le_refl 0) narrow]
  have encoded :=
    fun capacity bytes =>
      @encodeOptions_e_eq_ok options 0 0 capacity bytes values (Nat.le_refl 0)
        narrow
  constructor
  · intro encodes
    obtain ⟨bytes, selected, done, counted, isSelected, isBytes⟩ := encodes
    obtain ⟨_, written⟩ := (encoded _ _).mp done
    rw [optionBytes_encodeOptions, isSelected] at isBytes
    change bytes = numberedBytes 0 (absoluteClassE 0 options) at isBytes
    rw [← written, ← isBytes]
    exact ⟨rfl, counted.symm⟩
  · intro fits
    obtain ⟨written, counted⟩ := fits
    have small := absoluteOptions_small narrow
    obtain ⟨selected, isSelected⟩ :=
      @exists_messageOptions (absoluteClassE 0 options)
        fun option member => small option (List.mem_filter.mp member).1
    refine
      ⟨_, selected, (encoded _ _).mpr ⟨?_, rfl⟩, ?_, isSelected, ?_⟩
    · rw [written]
      exact Nat.le_of_eq counted.symm
    · rw [written]
      exact counted.symm
    · rw [optionBytes_encodeOptions, isSelected, written]

/-- For every class, the encoder does what its documentation says exactly under
the condition for that class; with the answers of `option_belongs_to_class` for
the classes, that is the condition for class E alone. -/
theorem encodeOptions_encodes_iff (cls : OptionClass)
    (options : List OCoapOption) (values : HasValues options)
    (narrow :
      (options.map fun option => option.delta.toNat).sum < 2 ^ 16) :
    (EncodesClass cls (isOfClass cls) options ↔
        ClassEncodable options cls) ∧
      (EncodesClass cls (fun number => optionBelongsToClass number cls)
          options ↔
        (cls = .e → DifferencesFit 0 0 options)) := by
  have small : lastNumber 0 options < 2 ^ 16 := by
    unfold lastNumber
    omega
  cases cls with
  | u =>
      have none := fun belongs =>
        @encodesClass_none .u belongs options (encodedOptionLen_u 0 options)
          (fun capacity => encodeOptions_u 0 capacity options)
      rw [none, none]
      constructor
      · simp [ClassEncodable, isOfClass]
      · simp [optionBelongsToClass]
  | i =>
      have none := fun belongs =>
        @encodesClass_none .i belongs options (encodedOptionLen_i 0 options)
          (fun capacity => encodeOptions_i 0 capacity options)
      rw [none, none]
      constructor
      · simp [ClassEncodable, isOfClass]
      · simp
  | e =>
      have encodes := encodesClass_e_iff values small
      constructor
      · exact encodes
      · constructor
        · intro done _
          exact encodes.mp done
        · intro fits
          exact encodes.mpr (fits rfl)

/-- A Uri-Host in front of a Uri-Path and a Content-Format. -/
theorem encodeOptions_encodes_path :
    EncodesClass .e (isOfClass .e)
      [⟨3, 1, [0x61], 3⟩, ⟨8, 1, [0x62], 11⟩, ⟨1, 1, [0x32], 12⟩] :=
  (encodeOptions_encodes_iff .e
      [⟨3, 1, [0x61], 3⟩, ⟨8, 1, [0x62], 11⟩, ⟨1, 1, [0x32], 12⟩]
      (by unfold HasValues; decide) (by decide)).1.mpr (by
        change DifferencesFit 0 0 _
        decide)

/-- The ETag behind an If-Match is skipped, since its delta is the number of
Uri-Host. -/
theorem etag_skipped :
    ¬ ∀ (cls : OptionClass) (options : List OCoapOption), HasValues options →
        (options.map fun option => option.delta.toNat).sum < 2 ^ 16 →
        EncodesClass cls (isOfClass cls) options := by
  intro claimed
  obtain ⟨bytes, selected, encoded, counted, _⟩ :=
    claimed .e [⟨1, 1, [0x61], 1⟩, ⟨3, 1, [0x62], 4⟩]
      (by unfold HasValues; decide) (by decide)
  have isBytes : bytes = [0x11, 0x61] := by
    have computed :
        Oscore.encodeOptions .e 0
            (encodedOptionLen .e 0 [⟨1, 1, [0x61], 1⟩, ⟨3, 1, [0x62], 4⟩])
            [⟨1, 1, [0x61], 1⟩, ⟨3, 1, [0x62], 4⟩] =
          .ok [0x11, 0x61] := by
      decide
    rw [computed, Except.ok.injEq] at encoded
    exact encoded.symm
  rw [isBytes] at counted
  exact absurd counted (by decide)

end UoscoreUedhoc.Oscore

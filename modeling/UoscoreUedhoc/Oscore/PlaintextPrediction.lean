import UoscoreUedhoc.Oscore.ClassEncoding
import UoscoreUedhoc.Oscore.InnerPlaintext

/-!
# The predicted length of the plaintext

`e_u_options_extract` counts the bytes of the E-options before they are written.
It goes by the deltas of the packet and takes 13 for a value without extension
bytes; the writer goes by the differences between E-options and puts one
extension byte behind 13.  So the count is never too large, and too small where
a band boundary lies between the two.
-/

namespace UoscoreUedhoc.Oscore

open UoscoreUedhoc
open UoscoreUedhoc.Coap

/-! ## The property -/

/-- The count is the number of bytes written for the E-options, and where these
and the payload have room, `plaintext_setup` fills the plaintext exactly. -/
def PredictsPlaintext (packet : OCoapPacket) : Prop :=
  ∃ options, packet.options = some options ∧
    let extracted := euOptionsExtract 0 0 0 options
    (∃ bytes,
        optionsIntoByteString (maximalOptionsLen extracted.eOptions)
            extracted.eOptions = .ok bytes ∧
          extracted.eOptionsLen.toNat = bytes.length) ∧
      (maximalOptionsLen extracted.eOptions ≤ maxEOptions →
        1 + extracted.eOptionsLen.toNat + payloadRoom packet.payloadLen ≤
          maxPlaintextLen →
        plaintextSetup packet extracted.eOptions
            (plaintextLen extracted.eOptionsLen packet.payloadLen) =
          .ok
            (packet.header.code ::
              (optionsWritten extracted.eOptions ++
                markedPayload (packet.payload.take packet.payloadLen))))

/-! ## The condition -/

/-- The count is right for an E-option with this delta, this difference to the
E-option before, and a value of this length. -/
def CountsOption (delta difference length : Nat) : Prop :=
  length ≠ 13 ∧
    (difference < 13 ∨ (13 < delta ∧ difference < 243) ∨ 243 ≤ delta)

instance (delta difference length : Nat) :
    Decidable (CountsOption delta difference length) :=
  inferInstanceAs (Decidable (_ ∧ _))

/-- The count is right for every E-option behind one with the number
`previous`. -/
def CountsOptions : Nat → Nat → List OCoapOption → Prop
  | _, _, [] => True
  | previous, number, option :: options =>
      let next := number + option.delta.toNat
      if isClassE (UInt16.ofNat next) then
        CountsOption option.delta.toNat (next - previous) option.len.toNat ∧
          CountsOptions next next options
      else
        CountsOptions previous next options

instance decidableCountsOptions :
    (previous number : Nat) → (options : List OCoapOption) →
      Decidable (CountsOptions previous number options)
  | _, _, [] => instDecidableTrue
  | previous, number, option :: options =>
      have _ := decidableCountsOptions (number + option.delta.toNat)
        (number + option.delta.toNat) options
      have _ := decidableCountsOptions previous
        (number + option.delta.toNat) options
      inferInstanceAs (Decidable
        (if isClassE (UInt16.ofNat (number + option.delta.toNat)) then
          CountsOption option.delta.toNat
              (number + option.delta.toNat - previous) option.len.toNat ∧
            CountsOptions (number + option.delta.toNat)
              (number + option.delta.toNat) options
        else
          CountsOptions previous (number + option.delta.toNat) options))

/-! ## One option -/

theorem extraBytes_toNat (value : UInt16) :
    (extraBytes value).toNat =
      if 13 < value.toNat ∧ value.toNat < 243 then 1
      else if 243 ≤ value.toNat then 2 else 0 := by
  unfold extraBytes
  simp only [UInt16.lt_iff_toNat_lt, UInt16.le_iff_toNat_le,
    UInt16.reduceToNat]
  split
  · rfl
  · split <;> rfl

theorem extendedBytes_length_eq (value : UInt16) :
    (extendedBytes value).length =
      if value.toNat < 13 then 0 else if value.toNat < 243 then 1 else 2 := by
  unfold extendedBytes
  simp only [UInt16.lt_iff_toNat_lt, UInt16.reduceToNat]
  split
  · rfl
  · split <;> rfl

/-- What is counted for an option is at most what is written for it, and as
much exactly under the condition. -/
theorem counted_le_written {delta difference : UInt16} {len : UInt8}
    (behind : delta.toNat ≤ difference.toNat) :
    (extraBytes delta).toNat + (extraBytes len.toUInt16).toNat ≤
        (extendedBytes difference).length +
          (extendedBytes len.toUInt16).length ∧
      ((extraBytes delta).toNat + (extraBytes len.toUInt16).toNat =
          (extendedBytes difference).length +
            (extendedBytes len.toUInt16).length ↔
        CountsOption delta.toNat difference.toNat len.toNat) := by
  have lenBound := len.toNat_lt
  unfold CountsOption
  rw [extraBytes_toNat, extraBytes_toNat, extendedBytes_length_eq,
    extendedBytes_length_eq, UInt8.toNat_toUInt16]
  split_ifs <;> omega

/-! ## All options -/

theorem optionsWritten_cons_length {option : OCoapOption}
    (hasValue : option.len.toNat ≤ option.value.length)
    (options : List OCoapOption) :
    (optionsWritten (option :: options)).length =
      1 + (extendedBytes option.delta).length +
          (extendedBytes option.len.toUInt16).length + option.len.toNat +
        (optionsWritten options).length := by
  rw [optionsWritten, List.map_cons, List.flatten_cons, List.length_append,
    optionWritten_length hasValue, optionHeader, List.length_cons,
    List.length_append]
  change _ + (optionsWritten options).length = _
  omega

theorem countedOption_le (option : OCoapOption) :
    (extraBytes option.delta).toNat +
      (extraBytes option.len.toUInt16).toNat ≤ 4 := by
  rw [extraBytes_toNat, extraBytes_toNat]
  split_ifs <;> omega

/-- The narrow arithmetic of `e_u_options_extract` on numbers up to 255. -/
theorem extract_arithmetic {previous number : Nat} {delta : UInt16}
    (behind : previous ≤ number) (narrow : number + delta.toNat ≤ 255) :
    UInt8.ofNat number + delta.toUInt8 =
        UInt8.ofNat (number + delta.toNat) ∧
      (UInt8.ofNat (number + delta.toNat)).toUInt16 =
        UInt16.ofNat (number + delta.toNat) ∧
      UInt16.ofNat (number + delta.toNat) - (UInt8.ofNat previous).toUInt16 =
        UInt16.ofNat (number + delta.toNat - previous) ∧
      UInt8.ofNat previous +
          (UInt16.ofNat (number + delta.toNat - previous)).toUInt8 =
        UInt8.ofNat (number + delta.toNat) := by
  have deltaByte : delta.toUInt8 = UInt8.ofNat delta.toNat := by
    apply UInt8.toNat_inj.mp
    rw [UInt16.toNat_toUInt8, UInt8.toNat_ofNat']
  have small : UInt16.ofNat (number + delta.toNat - previous) =
      UInt16.ofNat (number + delta.toNat) - UInt16.ofNat previous := by
    rw [UInt16.ofNat_sub (by omega)]
  have wide : ∀ value : Nat, value ≤ 255 →
      (UInt8.ofNat value).toUInt16 = UInt16.ofNat value := by
    intro value bounded
    apply UInt16.toNat_inj.mp
    rw [UInt8.toNat_toUInt16, UInt8.toNat_ofNat', UInt16.toNat_ofNat']
    omega
  refine ⟨?_, wide _ narrow, ?_, ?_⟩
  · rw [deltaByte, ← UInt8.ofNat_add]
  · rw [wide previous (by omega), small]
  · apply UInt8.toNat_inj.mp
    rw [UInt8.toNat_add, UInt16.toNat_toUInt8, UInt16.toNat_ofNat',
      UInt8.toNat_ofNat', UInt8.toNat_ofNat']
    omega

/-- What is counted for one option, without a carry out of 16 bits. -/
theorem countedOption_toNat {option : OCoapOption} {others : UInt16}
    (room : others.toNat + maxOptionBytes < 2 ^ 16) :
    (1 + extraBytes option.delta + extraBytes option.len.toUInt16 +
          option.len.toUInt16 + others).toNat =
      1 + (extraBytes option.delta).toNat +
            (extraBytes option.len.toUInt16).toNat + option.len.toNat +
        others.toNat := by
  have atMost := countedOption_le option
  have lenBound := option.len.toNat_lt
  unfold maxOptionBytes at room
  simp only [UInt16.toNat_add, UInt8.toNat_toUInt16, UInt16.reduceToNat]
  omega

/-- The count never exceeds what is written, and reaches it exactly where every
E-option is counted right. -/
theorem eOptionsLen_le_written {options : List OCoapOption}
    {previous number : Nat} (uDeltaSum : UInt8)
    (values : HasValues options) (behind : previous ≤ number)
    (narrow : lastNumber number options ≤ 255)
    (few : options.length * maxOptionBytes < 2 ^ 16) :
    (euOptionsExtract (UInt8.ofNat number) (UInt8.ofNat previous) uDeltaSum
          options).eOptionsLen.toNat ≤ options.length * maxOptionBytes ∧
      (euOptionsExtract (UInt8.ofNat number) (UInt8.ofNat previous) uDeltaSum
          options).eOptionsLen.toNat ≤
        (optionsWritten
          (euOptionsExtract (UInt8.ofNat number) (UInt8.ofNat previous)
            uDeltaSum options).eOptions).length ∧
      ((euOptionsExtract (UInt8.ofNat number) (UInt8.ofNat previous) uDeltaSum
          options).eOptionsLen.toNat =
        (optionsWritten
          (euOptionsExtract (UInt8.ofNat number) (UInt8.ofNat previous)
            uDeltaSum options).eOptions).length ↔
        CountsOptions previous number options) := by
  induction options generalizing previous number uDeltaSum with
  | nil =>
      exact ⟨Nat.le_refl 0, Nat.le_refl 0, iff_of_true rfl trivial⟩
  | cons option options inductionHypothesis =>
      obtain ⟨hasValue, otherValues⟩ := List.forall_mem_cons.mp values
      rw [lastNumber_cons] at narrow
      have next := le_lastNumber (number + option.delta.toNat) options
      obtain ⟨numberIs, wideNumber, difference, sum⟩ :=
        @extract_arithmetic previous number option.delta behind (by omega)
      rw [List.length_cons, Nat.add_mul, Nat.one_mul] at few ⊢
      unfold euOptionsExtract CountsOptions
      dsimp only
      rw [numberIs, wideNumber]
      cases isE : isClassE (UInt16.ofNat (number + option.delta.toNat)) with
      | true =>
          simp only [if_true]
          rw [difference, sum]
          obtain ⟨bounded, counted, exactly⟩ :=
            @inductionHypothesis (number + option.delta.toNat)
              (number + option.delta.toNat) uDeltaSum otherValues
              (Nat.le_refl _) narrow (by omega)
          have differenceIs :
              (UInt16.ofNat (number + option.delta.toNat - previous)).toNat =
                number + option.delta.toNat - previous :=
            UInt16.toNat_ofNat_of_lt' (by
              change _ < 65536
              omega)
          obtain ⟨optionCounted, optionExactly⟩ :=
            @counted_le_written option.delta
              (UInt16.ofNat (number + option.delta.toNat - previous))
              option.len (by rw [differenceIs]; omega)
          rw [differenceIs] at optionExactly
          generalize
            euOptionsExtract (UInt8.ofNat (number + option.delta.toNat))
              (UInt8.ofNat (number + option.delta.toNat)) uDeltaSum
              options = rest at bounded counted exactly ⊢
          have written :=
            @optionsWritten_cons_length
              { option with
                delta := UInt16.ofNat (number + option.delta.toNat - previous)
                optionNumber := UInt8.ofNat (number + option.delta.toNat) }
              hasValue rest.eOptions
          have total :=
            @countedOption_toNat option rest.eOptionsLen (by omega)
          dsimp only at written
          rw [written, total]
          have lenBound := option.len.toNat_lt
          have atMost := countedOption_le option
          refine ⟨?_, ?_, ?_⟩
          · unfold maxOptionBytes at bounded ⊢
            omega
          · omega
          · rw [← optionExactly, ← exactly]
            omega
      | false =>
          simp only [Bool.false_eq_true, if_false]
          obtain ⟨bounded, counted, exactly⟩ :=
            @inductionHypothesis previous (number + option.delta.toNat)
              _ otherValues (by omega) narrow (by omega)
          exact ⟨by omega, counted, exactly⟩

/-- The count and the bytes written for the E-options of a packet agree exactly
under the condition, and then `plaintext_setup` fills the plaintext. -/
theorem predictsPlaintext_iff (packet : OCoapPacket)
    (options : List OCoapOption) (isOptions : packet.options = some options)
    (few : options.length ≤ maxOptionCount) (values : HasValues options)
    (available : packet.payloadLen ≤ packet.payload.length)
    (numbers :
      (options.map fun option => option.delta.toNat).sum ≤ 255) :
    PredictsPlaintext packet ↔ CountsOptions 0 0 options := by
  have narrow : lastNumber 0 options ≤ 255 := by
    unfold lastNumber
    omega
  have room : options.length * maxOptionBytes < 2 ^ 16 := by
    unfold maxOptionCount at few
    unfold maxOptionBytes
    omega
  obtain ⟨_, _, exactly⟩ :=
    @eOptionsLen_le_written options 0 0 0 values (Nat.le_refl 0) narrow room
  have innerValues := (euOptionsExtract_hasValues values 0 0 0).1
  rw [← exactly]
  change _ ↔
    (euOptionsExtract 0 0 0 options).eOptionsLen.toNat =
      (optionsWritten (euOptionsExtract 0 0 0 options).eOptions).length
  unfold PredictsPlaintext
  simp only [isOptions, Option.some.injEq, exists_eq_left']
  generalize euOptionsExtract 0 0 0 options = extracted at innerValues ⊢
  constructor
  · intro predicts
    obtain ⟨⟨bytes, written, counted⟩, _⟩ := predicts
    rw [counted, (optionsIntoByteString_eq_ok.mp written).2.2]
  · intro counted
    refine ⟨⟨_, optionsIntoByteString_eq_ok.mpr
      ⟨innerValues, optionsWritten_length_le innerValues, rfl⟩, counted⟩, ?_⟩
    intro optionRoom fits
    obtain ⟨plaintext, done⟩ :=
      (@plaintextSetup_ok_iff packet extracted.eOptions extracted.eOptionsLen
        innerValues optionRoom available fits (by omega)).mpr
        (Or.inl counted.symm)
    have needed :
        plaintextLen extracted.eOptionsLen packet.payloadLen =
          neededPlaintextLen packet extracted.eOptions := by
      unfold maxPlaintextLen at fits
      rw [plaintextLen_eq (by omega), counted]
      rfl
    rw [done]
    rw [needed] at done
    rw [(plaintextSetup_exact done).2.2.2]

/-- A GET for a Uri-Path, with a Uri-Host in front and a payload. -/
theorem predictsPlaintext_get :
    PredictsPlaintext
      { header := { ver := 1, type := 0, tkl := 0, code := 1, mid := 0 }
        token := some []
        options :=
          some [⟨3, 1, [0x61], 3⟩, ⟨8, 2, [0x62, 0x63], 11⟩]
        payloadLen := 1
        payload := [0x64] } :=
  (predictsPlaintext_iff _ [⟨3, 1, [0x61], 3⟩, ⟨8, 2, [0x62, 0x63], 11⟩] rfl
    (by decide) (by unfold HasValues; decide) (by decide)
    (by decide)).mpr (by decide)

/-- For a value of 13 bytes, 14 bytes are counted and 15 written. -/
theorem thirteenBytes_uncounted :
    ¬ ∀ (packet : OCoapPacket) (options : List OCoapOption),
        packet.options = some options → options.length ≤ maxOptionCount →
        HasValues options → packet.payloadLen ≤ packet.payload.length →
        (options.map fun option => option.delta.toNat).sum ≤ 255 →
        PredictsPlaintext packet := by
  intro claimed
  obtain ⟨options, isOptions, ⟨bytes, written, counted⟩, _⟩ :=
    claimed
      { header := { ver := 1, type := 0, tkl := 0, code := 1, mid := 0 }
        token := some []
        options := some [⟨11, 13, List.replicate 13 0x61, 11⟩]
        payloadLen := 0
        payload := [] }
      [⟨11, 13, List.replicate 13 0x61, 11⟩] rfl (by decide)
      (by unfold HasValues; decide) (by decide) (by decide)
  obtain rfl := Option.some.inj isOptions
  rw [(optionsIntoByteString_eq_ok.mp written).2.2] at counted
  exact absurd counted (by decide)

end UoscoreUedhoc.Oscore

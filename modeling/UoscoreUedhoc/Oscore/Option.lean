import UoscoreUedhoc.Oscore.OscoreCoap

/-!
# Option classes

`option.c`: the class of an option, and the encoder `encode_options` for the
options of one class.
-/

namespace UoscoreUedhoc.Oscore

open UoscoreUedhoc

/-- The option numbers that are not of class E: Uri-Host, Uri-Port, OSCORE,
Proxy-Uri and Proxy-Scheme. -/
def unprotectedOptionNumbers : List UInt16 := [3, 7, 9, 35, 39]

/-- `is_class_e`. -/
def isClassE (code : UInt16) : Bool :=
  decide (code ∉ unprotectedOptionNumbers)

/-- `enum option_class`. -/
inductive OptionClass where
  | u
  | i
  | e
  deriving DecidableEq, Repr

/-- `option_belongs_to_class`. -/
def optionBelongsToClass (optionNum : UInt16) : OptionClass → Bool
  | .i => false
  | .e => isClassE optionNum
  | .u => false

/-- `option_field_len`. -/
def optionFieldLen (value : UInt16) : Nat :=
  if value < 13 then 0 else if value < 269 then 1 else 2

/-- `encoded_option_len`, with the running sum `total_delta`. -/
def encodedOptionLen (cls : OptionClass) :
    UInt16 → List OCoapOption → Nat
  | _, [] => 0
  | totalDelta, option :: options =>
      let totalDelta := totalDelta + option.delta
      let rest := encodedOptionLen cls totalDelta options
      if optionBelongsToClass totalDelta cls then
        1 + optionFieldLen option.delta + optionFieldLen option.len.toUInt16 +
          option.len.toNat + rest
      else
        rest

/-- The nibble `encode_options` writes for a delta or a length. -/
def encodedNibble (value : UInt16) : UInt8 :=
  if value < 13 then value.toUInt8 else if value < 269 then 13 else 14

/-- The extension bytes `encode_options` writes for a delta or a length. -/
def encodedExtension (value : UInt16) : Bytes :=
  if value < 13 then
    []
  else if value < 269 then
    [(value - 13).toUInt8]
  else
    [((value - 269) >>> 8).toUInt8, (value - 269).toUInt8]

/-- `encode_options` into a buffer of `capacity` bytes, with the running sum
`skipped_delta`. -/
def encodeOptions (cls : OptionClass) :
    UInt16 → Nat → List OCoapOption → Outcome Bytes
  | _, _, [] => .ok []
  | skippedDelta, capacity, option :: options =>
      let delta := option.delta + skippedDelta
      if optionBelongsToClass delta cls then do
        let header :=
          ((encodedNibble delta <<< 4) |||
              encodedNibble option.len.toUInt16) ::
            (encodedExtension delta ++
              encodedExtension option.len.toUInt16)
        if capacity < header.length then
          undefinedBehaviour
        else
          let value ←
            memcpyS (capacity - header.length) option.value option.len.toNat
          let rest ←
            encodeOptions cls 0
              (capacity - header.length - option.len.toNat) options
          .ok (header ++ value ++ rest)
      else
        encodeOptions cls (skippedDelta + option.delta) capacity options

/-! ## Class I is empty -/

@[simp]
theorem optionBelongsToClass_i (optionNum : UInt16) :
    optionBelongsToClass optionNum .i = false := rfl

@[simp]
theorem encodedOptionLen_i (totalDelta : UInt16)
    (options : List OCoapOption) :
    encodedOptionLen .i totalDelta options = 0 := by
  induction options generalizing totalDelta with
  | nil =>
      rfl
  | cons option options inductionHypothesis =>
      simp [encodedOptionLen, inductionHypothesis]

@[simp]
theorem encodeOptions_i (skippedDelta : UInt16) (capacity : Nat)
    (options : List OCoapOption) :
    encodeOptions .i skippedDelta capacity options = .ok [] := by
  induction options generalizing skippedDelta with
  | nil =>
      rfl
  | cons option options inductionHypothesis =>
      simp [encodeOptions, inductionHypothesis]

end UoscoreUedhoc.Oscore

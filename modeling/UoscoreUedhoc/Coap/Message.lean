import UoscoreUedhoc.Coap.OptionFormat

/-!
# Messages of RFC 7252

A message with the constraints of the format in its fields, and its bytes.
Options carry their numbers; the deltas are those between the numbers.
-/

namespace UoscoreUedhoc.Coap

/-- An option number with a value. -/
structure MessageOption where
  number : Nat
  value : List UInt8
  number_lt : number < 2 ^ 16
  value_length_lt : value.length < valueBound
  deriving DecidableEq, Repr

/-- A CoAP message of version 1. -/
structure Message where
  type : UInt8
  code : UInt8
  mid : UInt16
  token : List UInt8
  options : List MessageOption
  payload : List UInt8
  type_lt : type < 4
  token_length_le : token.length ≤ 8
  ascending : options.Pairwise fun option later => option.number ≤ later.number
  empty : code = 0 → token = [] ∧ options = [] ∧ payload = []
  deriving DecidableEq, Repr

/-- The options behind one with the number `previous`. -/
def encodeOptions : Nat → List MessageOption → List EncodedOption
  | _, [] => []
  | previous, option :: options =>
      .encode (option.number - previous) option.value option.value_length_lt ::
        encodeOptions option.number options

/-- The bytes of a sequence of options. -/
def optionBytes (options : List EncodedOption) : List UInt8 :=
  (options.map EncodedOption.bytes).flatten

namespace Message

/-- The first byte: the version, the type, and the length of the token. -/
def firstByte (message : Message) : UInt8 :=
  (0x40 : UInt8) ||| (message.type <<< 4) |||
    UInt8.ofNat message.token.length

/-- The payload with its marker. -/
def payloadBytes (message : Message) : List UInt8 :=
  if message.payload = [] then [] else 0xFF :: message.payload

def bytes (message : Message) : List UInt8 :=
  message.firstByte :: message.code :: (message.mid >>> 8).toUInt8 ::
    message.mid.toUInt8 ::
      (message.token ++
        (optionBytes (encodeOptions 0 message.options) ++
          message.payloadBytes))

end Message

end UoscoreUedhoc.Coap

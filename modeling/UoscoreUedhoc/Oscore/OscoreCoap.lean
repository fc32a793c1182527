import UoscoreUedhoc.Common.Runtime

/-!
# CoAP packets and their bytes

The packet structures of `oscore_coap.h` and the conversions of
`oscore_coap.c`: `buf2coap` with its option loop, and `coap2buf` with
`options_into_byte_string`.

Fields have the widths of the C structures, so that their arithmetic wraps as
it does there.  Lengths of buffers are natural numbers.
-/

namespace UoscoreUedhoc.Oscore

open UoscoreUedhoc

/-! ## Constants -/

def maxPivLen : Nat := 5
def maxKidContextLen : Nat := 8
def maxKidLen : Nat := 7
def maxAadLen : Nat := 30
def maxInfoLen : Nat := 50
def headerLen : Nat := 4
def oscoreOptValueLen : Nat := 2 + maxPivLen + maxKidContextLen + maxKidLen
def maxOptionCount : Nat := 20
def maxPlaintextLen : Nat := 128
def authTagLen : Nat := 8
def maxCiphertextLen : Nat := maxPlaintextLen + authTagLen
def maxCoapOptionsLen : Nat := 128
def maxEOptions : Nat := 30
def maxIOptions : Nat := 30

/-- `COAP_OPTION_OSCORE`. -/
def coapOptionOscore : UInt8 := 9

/-- `TYPE_ACK`. -/
def typeAck : UInt8 := 2

/-- `CODE_CLASS_MASK`. -/
def codeClassMask : UInt8 := 0xe0

/-- `CODE_EMPTY`. -/
def codeEmpty : UInt8 := 0

/-- `CODE_REQ_POST`. -/
def codeReqPost : UInt8 := 0x02

/-- `CODE_RESP_CHANGED`. -/
def codeRespChanged : UInt8 := 0x44

/-- `REQUEST_CLASS`. -/
def requestClass : UInt8 := 0

/-! ## Packets -/

/-- `struct o_coap_header`. -/
structure OCoapHeader where
  ver : UInt8
  type : UInt8
  tkl : UInt8
  code : UInt8
  mid : UInt16
  deriving DecidableEq, Repr

/-- `struct o_coap_option`.  The pointer `value` is the rest of the buffer it
points into, of which the first `len` bytes are the value. -/
structure OCoapOption where
  delta : UInt16
  len : UInt8
  value : Bytes
  optionNumber : UInt8
  deriving DecidableEq, Repr

/-- `struct o_coap_packet`.  `token` and `options` are `none` while nothing has
written the token pointer or the option count; `options` lists the first
`options_cnt` entries of the option array. -/
structure OCoapPacket where
  header : OCoapHeader
  token : Option Bytes
  options : Option (List OCoapOption)
  payloadLen : Nat
  payload : Bytes
  deriving DecidableEq, Repr

/-! ## Parsing options -/

/-- How a parser computes a delta or a length from its one or two extension
bytes. -/
structure ExtensionDecoder where
  one : UInt8 → UInt8
  two : UInt8 → UInt8 → UInt8

/-- One `switch` of an option parser: the value of a delta or length nibble,
the number of extension bytes, and the pointer behind them. -/
def extendedField
    (decoder : ExtensionDecoder) (reserved : Err)
    (nibble : UInt8) (p : Bytes) : Outcome (UInt8 × UInt8 × Bytes) :=
  if nibble = 13 then
    match p with
    | first :: rest => .ok (decoder.one first, 1, rest)
    | [] => undefinedBehaviour
  else if nibble = 14 then
    match p with
    | first :: second :: rest => .ok (decoder.two first second, 2, rest)
    | _ => undefinedBehaviour
  else if nibble = 15 then
    fail reserved
  else
    .ok (nibble, 0, p)

/-- What an option parser reads in front of an option value. -/
structure OptionHead where
  headerLen : UInt8
  delta : UInt8
  len : UInt8
  rest : Bytes
  deriving DecidableEq, Repr

/-- The first part of the body of an option loop. -/
def optionHead (delta len : ExtensionDecoder) (p : Bytes) :
    Outcome OptionHead :=
  match p with
  | [] => undefinedBehaviour
  | first :: afterFirst => do
    let (optionDelta, deltaBytes, afterDelta) ←
      extendedField delta .oscoreInpktInvalidOptionDelta
        ((first &&& 0xF0) >>> 4) afterFirst
    let (optionLen, lenBytes, afterLen) ←
      extendedField len .oscoreInpktInvalidOptionlen
        (first &&& 0x0F) afterDelta
    .ok ⟨1 + deltaBytes + lenBytes, optionDelta, optionLen, afterLen⟩

/-- `while (i < in_data_len)`: parse options into an array with `slots` free
entries.  A store past the end of the array is undefined. -/
def optionsLoop (delta len : ExtensionDecoder) (inDataLen : UInt16) :
    Nat → UInt16 → UInt8 → Bytes → Outcome (List OCoapOption)
  | 0, i, _, p =>
      if i < inDataLen then do
        let _ ← optionHead delta len p
        undefinedBehaviour
      else
        .ok []
  | slots + 1, i, number, p =>
      if i < inDataLen then do
        let head ← optionHead delta len p
        let optionNumber := number + head.delta
        let options ←
          optionsLoop delta len inDataLen slots
            (i + head.headerLen.toUInt16 + head.len.toUInt16)
            optionNumber (head.rest.drop head.len.toNat)
        .ok
          ({ delta := head.delta.toUInt16
             len := head.len
             value := if head.len = 0 then [] else head.rest
             optionNumber := optionNumber } :: options)
      else
        .ok []

/-- The extended deltas of `buf2options`. -/
def buf2optionsDelta : ExtensionDecoder where
  one first := first - 13
  two first second :=
    ((first.toUInt32 <<< 8) ||| (second.toUInt32 - 269)).toUInt8

/-- The extended lengths of `buf2options`. -/
def buf2optionsLen : ExtensionDecoder where
  one first := first + 13
  two first second :=
    ((first.toUInt32 <<< 8) ||| (second.toUInt32 + 269)).toUInt8

/-- `buf2options`, with `out_options` the option array of a packet. -/
def buf2options (inData : Bytes) (inDataLen : UInt16) :
    Outcome (List OCoapOption) :=
  optionsLoop buf2optionsDelta buf2optionsLen inDataLen
    maxOptionCount 0 0 inData

/-- The `if (options_len > 0)` around both option parsers. -/
def parseOptions (parser : Bytes → UInt16 → Outcome (List OCoapOption))
    (inData : Bytes) (optionsLen : UInt16) : Outcome (List OCoapOption) :=
  if 0 < optionsLen then parser inData optionsLen else .ok []

/-! ## Parsing packets -/

/-- The fields that `buf2coap` reads from the first four bytes. -/
def parseHeader (first code midHigh midLow : UInt8) : OCoapHeader where
  ver := (first &&& 0xC0) >>> 6
  type := (first &&& 0x30) >>> 4
  tkl := first &&& 0x0F
  code := code
  mid := (midHigh.toUInt16 <<< 8) ||| midLow.toUInt16

/-- `buf2coap`.  The `while` loop that looks for the payload marker is
`List.span`; `options_len` is the 16-bit count of the bytes it passes.  Where
the token is longer than what is left, `payload_len` wraps around and the
marker test reads behind the input. -/
def buf2coap (input : Bytes) : Outcome OCoapPacket :=
  match input with
  | first :: code :: midHigh :: midLow :: rest =>
      let header := parseHeader first code midHigh midLow
      if rest = [] then
        .ok
          { header, token := none, options := none
            payloadLen := 0, payload := [] }
      else if 8 < header.tkl then
        fail .oscoreInpktInvalidTkl
      else if rest.length < header.tkl.toNat then
        undefinedBehaviour
      else
        let token := if header.tkl = 0 then [] else rest
        let tmp := rest.drop header.tkl.toNat
        if tmp = [] then
          .ok
            { header, token := some token, options := none
              payloadLen := 0, payload := [] }
        else do
          let (region, marked) := tmp.span (· ≠ 0xFF)
          let optionsLen := UInt16.ofNat region.length
          let options ← parseOptions buf2options tmp optionsLen
          .ok
            { header, token := some token, options := some options
              payloadLen := marked.tail.length, payload := marked.tail }
  | _ => fail .notValidInputPacket

/-! ## Writing options and packets -/

/-- The nibble `options_into_byte_string` writes for a delta or a length. -/
def extendedNibble (value : UInt16) : UInt8 :=
  if value < 13 then value.toUInt8 else if value < 243 then 13 else 14

/-- The extension bytes `options_into_byte_string` writes for a delta or a
length. -/
def extendedBytes (value : UInt16) : Bytes :=
  if value < 13 then
    []
  else if value < 243 then
    [(value + 13).toUInt8]
  else
    [(((value + 269) &&& 0xFF00) >>> 8).toUInt8,
      ((value + 269) &&& 0x00FF).toUInt8]

/-- The bytes `options_into_byte_string` writes in front of an option value. -/
def optionHeader (option : OCoapOption) : Bytes :=
  ((extendedNibble option.delta <<< 4) |||
      extendedNibble option.len.toUInt16) ::
    (extendedBytes option.delta ++ extendedBytes option.len.toUInt16)

/-- `options_into_byte_string` into a buffer of `capacity` bytes.  Only the
copy of the value is checked against the capacity. -/
def optionsIntoByteString : Nat → List OCoapOption → Outcome Bytes
  | _, [] => .ok []
  | capacity, option :: options =>
      let header := optionHeader option
      if capacity < header.length then
        undefinedBehaviour
      else do
        let value ←
          memcpyS (capacity - header.length) option.value option.len.toNat
        let rest ←
          optionsIntoByteString
            (capacity - header.length - option.len.toNat) options
        .ok (header ++ value ++ rest)

/-- The room `coap2buf` and `plaintext_setup` reserve for options: five bytes
and the value for each. -/
def maximalOptionsLen (options : List OCoapOption) : Nat :=
  (options.map fun option => 5 + option.len.toNat).sum

/-- The first four bytes `coap2buf` writes. -/
def headerBytes (header : OCoapHeader) : Bytes :=
  [(header.ver <<< 6) ||| (header.type <<< 4) ||| header.tkl,
    header.code,
    ((header.mid &&& 0xFF00) >>> 8).toUInt8,
    (header.mid &&& 0x00FF).toUInt8]

/-- The token as `coap2buf` copies it. -/
def tokenBytes (input : OCoapPacket) (capacity : Nat) : Outcome Bytes :=
  if 0 < input.header.tkl then do
    let token ← orUndefined input.token
    memcpyS (capacity - headerLen) token input.header.tkl.toNat
  else
    .ok []

/-- `coap2buf` into an output buffer of `capacity` bytes: the bytes written,
whose number is the new `*out_byte_string_len`.  The header and the payload
marker are stored without a check. -/
def coap2buf (input : OCoapPacket) (capacity : Nat) : Outcome Bytes :=
  if capacity < headerLen then
    undefinedBehaviour
  else do
    let token ← tokenBytes input capacity
    let options ← orUndefined input.options
    checkBufferSize maxCoapOptionsLen (maximalOptionsLen options)
    let optionBytes ←
      optionsIntoByteString (maximalOptionsLen options) options
    let offset := headerLen + token.length
    let optionBytes ←
      memcpyS (capacity - offset) optionBytes optionBytes.length
    let offset := offset + optionBytes.length
    let front := headerBytes input.header ++ token ++ optionBytes
    if input.payloadLen = 0 then
      .ok front
    else if capacity ≤ offset then
      undefinedBehaviour
    else do
      let payload ←
        memcpyS (capacity - (offset + 1)) input.payload input.payloadLen
      .ok (front ++ 0xFF :: payload)

end UoscoreUedhoc.Oscore

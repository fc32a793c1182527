import UoscoreUedhoc.Edhoc.External

/-!
# Connection identifiers and transcript hashes

`c_x.c` and `th.c`.  The three transcript hashes are hashes of CBOR sequences
written into buffers of fixed size; `th3_calculate` and `th4_calculate` compute
the size they offer to the encoder as a `uint32_t`.
-/

namespace UoscoreUedhoc.Edhoc

open UoscoreUedhoc

/-! ## Connection identifiers -/

/-- `struct c_x` with a value. -/
inductive Cx where
  | int (value : Int32)
  | bstr (value : Bytes)
  deriving DecidableEq, Repr

/-- A connection identifier as an item of a CBOR sequence. -/
def Cx.encode (cbor : CborMapEncoder) : Cx → Bytes
  | .int value => cbor.int32 value.toInt
  | .bstr value => cbor.bstr value

/-! ## Transcript hashes -/

section

variable (platform : EdhocPlatform)

/-- `th2_input_encode` into a buffer of `TH2_INPUT_DEFAULT_SIZE` bytes. -/
def th2InputEncode (hashMsg1 gY : Bytes) (cR : Cx) (th2InputLen : Nat) :
    Outcome Bytes :=
  cborEncode
    (platform.cbor.bstr hashMsg1 ++ platform.cbor.bstr gY ++
      cR.encode platform.cbor)
    th2InputLen

/-- `th3_input_encode`. -/
def th3InputEncode (th2 ciphertext2 : Bytes) (th3InputLen : Nat) :
    Outcome Bytes :=
  cborEncode (platform.cbor.bstr th2 ++ platform.cbor.bstr ciphertext2)
    th3InputLen

/-- `th4_input_encode`. -/
def th4InputEncode (th3 ciphertext3 : Bytes) (th4InputLen : Nat) :
    Outcome Bytes :=
  cborEncode (platform.cbor.bstr th3 ++ platform.cbor.bstr ciphertext3)
    th4InputLen

/-- `th2_calculate`. -/
def th2Calculate (alg : HashAlg) (msg1 gY : Bytes) (cR : Cx) :
    Outcome Bytes := do
  let hashMsg1 ← tryExpect (platform.crypto.hash alg msg1)
  let th2Input ← th2InputEncode platform hashMsg1 gY cR th2InputDefaultSize
  tryExpect (platform.crypto.hash alg th2Input)

/-- `th3_calculate`. -/
def th3Calculate (alg : HashAlg) (th2 ciphertext2 : Bytes) :
    Outcome Bytes := do
  let th3InputLen := (th2.length + ciphertext2.length + 6) % 2 ^ 32
  checkBufferSize th3InputDefaultSize th3InputLen
  let th3Input ← th3InputEncode platform th2 ciphertext2 th3InputLen
  tryExpect (platform.crypto.hash alg th3Input)

/-- `th4_calculate`. -/
def th4Calculate (alg : HashAlg) (th3 ciphertext3 : Bytes) :
    Outcome Bytes := do
  let th4InputLen :=
    (th3.length + ciphertext3.length + encodingOverhead) % 2 ^ 32
  checkBufferSize th4InputDefaultSize th4InputLen
  let th4Input ← th4InputEncode platform th3 ciphertext3 th4InputLen
  tryExpect (platform.crypto.hash alg th4Input)

end

end UoscoreUedhoc.Edhoc

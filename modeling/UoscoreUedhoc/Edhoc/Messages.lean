import UoscoreUedhoc.Edhoc.SignatureOrMac
import UoscoreUedhoc.Edhoc.TranscriptHash

/-!
# Messages and the channel

The generated encoders and decoders of `message_1` and `message_2`, and the
functions `tx` and `rx` of the application.
-/

namespace UoscoreUedhoc.Edhoc

open UoscoreUedhoc

/-! ## Connection identifiers in messages -/

/-- A decoded connection identifier. -/
inductive CxItem where
  | int (value : Int32)
  | bstr (value : ByteArrayView)
  deriving DecidableEq, Repr

/-- `C_I` and `C_R` in a message: an integer or a byte string. -/
def CxItem.decode (zcbor : ZcborDecoder) : Decoding CxItem :=
  Decoding.orElse
    (Decoding.asMember CxItem.int (Decoding.item zcbor.int32))
    (Decoding.asMember CxItem.bstr (Decoding.string zcbor.bstr))

/-! ## `message_1` -/

/-- The `SUITES_I` of a decoded message. -/
inductive SuitesIItem where
  | suite (values : List Int32)
  | int (value : Int32)
  deriving DecidableEq, Repr

/-- `struct message_1` of the decoder. -/
structure Message1 where
  method : Int32
  suitesI : SuitesIItem
  gX : ByteArrayView
  cI : CxItem
  ead1 : Option ByteArrayView
  deriving DecidableEq, Repr

/-- `decode_message_1`. -/
def Message1.decode (zcbor : ZcborDecoder) : Decoding Message1 :=
  Decoding.andThen (Decoding.item zcbor.int32) fun method =>
    Decoding.andThen
      (Decoding.orElse
        (Decoding.asMember SuitesIItem.suite
          (Decoding.list zcbor
            (Decoding.multi 2 10 (Decoding.item zcbor.int32))))
        (Decoding.asMember SuitesIItem.int (Decoding.item zcbor.int32)))
      fun suitesI =>
        Decoding.andThen (Decoding.string zcbor.bstr) fun gX =>
          Decoding.andThen (CxItem.decode zcbor) fun cI =>
            Decoding.asMember (Message1.mk method suitesI gX cI)
              (Decoding.present (Decoding.string zcbor.bstr))

/-- An `enum suite_label` or another `uint8_t` as an `int32_t`. -/
def int32OfByte (value : UInt8) : Int32 :=
  Int32.ofInt value.toNat

/-- The cast of an `int32_t` to a `uint8_t`. -/
def byteOfInt32 (value : Int32) : UInt8 :=
  UInt8.ofNat (value.toInt % 256).toNat

theorem byteOfInt32_int32OfByte (value : UInt8) :
    byteOfInt32 (int32OfByte value) = value := by
  have small := value.toNat_lt
  unfold byteOfInt32 int32OfByte
  rw [Int32.toInt_ofInt_of_le (by omega) (by omega)]
  rw [Int.emod_eq_of_lt (by omega) (by omega), Int.toNat_natCast,
    UInt8.ofNat_toNat]

/-- `SUITES_I` as `cbor_encode_message_1` writes it: one suite as an integer,
more than one as a list. -/
def encodeSuitesI (cbor : CborMapEncoder) (suitesI : Bytes) : Bytes :=
  match suitesI with
  | [suite] => cbor.int32 (int32OfByte suite).toInt
  | suites =>
      cbor.list (suites.map fun suite => cbor.int32 (int32OfByte suite).toInt)

/-! ## `message_2` -/

/-- `struct m2` of the decoder. -/
structure M2 where
  gYCiphertext2 : ByteArrayView
  cR : CxItem
  deriving DecidableEq, Repr

/-- `decode_m2`. -/
def M2.decode (zcbor : ZcborDecoder) : Decoding M2 :=
  Decoding.andThen (Decoding.string zcbor.bstr) fun gYCiphertext2 =>
    Decoding.asMember (M2.mk gYCiphertext2) (CxItem.decode zcbor)

/-- What `cbor_encode_m2` writes. -/
def encodeM2 (cbor : CborMapEncoder) (gYCiphertext2 : Bytes) (cR : Cx) :
    Bytes :=
  cbor.bstr gYCiphertext2 ++ cR.encode cbor

/-! ## The channel -/

/-- The messages that wait for a party and those it has sent. -/
structure Channel where
  incoming : List Bytes
  sent : List Bytes
  deriving DecidableEq, Repr

/-- `tx`. -/
def tx (data : Bytes) : Update Channel Unit :=
  modify fun channel => { channel with sent := channel.sent ++ [data] }

/-- `rx` into a buffer of the given size.  Without a message that fits it
returns an error. -/
def rx (size : Nat) : Update Channel Bytes := do
  let channel ← get
  match channel.incoming with
  | [] => .lift (fail .unexpectedResultFromExtLib)
  | data :: later => do
      modify fun channel => { channel with incoming := later }
      .lift (checkBufferSize size data.length)
      pure data

end UoscoreUedhoc.Edhoc

import UoscoreUedhoc.Edhoc.SignatureOrMac

/-!
# Credential identifiers and plaintexts

`id_cred2kid` of `plaintext_encode.c`, `plaintext_decode.c`, and the generated
decoders of `ID_CRED_x` maps and of plaintexts.  The two generated types `map`
and `id_cred_x_map` are the same.
-/

namespace UoscoreUedhoc.Edhoc

open UoscoreUedhoc

/-! ## `ID_CRED_x` maps -/

/-- The algorithm of a certificate hash. -/
inductive HashAlgorithm where
  | int (value : Int32)
  | tstr (value : ByteArrayView)
  deriving DecidableEq, Repr

/-- `struct map_x5t_` and `struct map_c5t_`. -/
structure CertHash where
  alg : HashAlgorithm
  hash : ByteArrayView
  deriving DecidableEq, Repr

/-- `struct map` and `struct id_cred_x_map`. -/
structure IdCredMap where
  kid : Option Int32
  x5bag : Option ByteArrayView
  x5chain : Option ByteArrayView
  x5t : Option CertHash
  x5u : Option ByteArrayView
  c5b : Option ByteArrayView
  c5c : Option ByteArrayView
  c5t : Option CertHash
  c5u : Option ByteArrayView
  deriving DecidableEq, Repr

namespace IdCredMap

open Decoding

variable (zcbor : ZcborDecoder)

/-- `decode_repeated_map_kid`. -/
def decodeKid : Decoding Int32 :=
  andThen (expect zcbor 4) fun _ => item zcbor.int32

/-- The members of a map that are a byte string. -/
def decodeString (label : UInt32) : Decoding ByteArrayView :=
  andThen (expect zcbor label) fun _ => string zcbor.bstr

/-- `decode_repeated_map_x5t` and `decode_repeated_map_c5t`. -/
def decodeCertHash (label : UInt32) : Decoding CertHash :=
  andThen (expect zcbor label) fun _ =>
    list zcbor
      (andThen
        (orElse (asMember HashAlgorithm.int (item zcbor.int32))
          (asMember HashAlgorithm.tstr (string zcbor.tstr)))
        fun alg => asMember (CertHash.mk alg) (string zcbor.bstr))

/-- `decode_map` and `decode_id_cred_x_map`. -/
def decode : Decoding IdCredMap :=
  map zcbor
    (andThen (present (decodeKid zcbor)) fun kid =>
      andThen (present (decodeString zcbor 32)) fun x5bag =>
        andThen (present (decodeString zcbor 33)) fun x5chain =>
          andThen (present (decodeCertHash zcbor 34)) fun x5t =>
            andThen (present (decodeString zcbor 35)) fun x5u =>
              andThen (present (decodeString zcbor 52)) fun c5b =>
                andThen (present (decodeString zcbor 53)) fun c5c =>
                  andThen (present (decodeCertHash zcbor 54)) fun c5t =>
                    asMember
                      (IdCredMap.mk kid x5bag x5chain x5t x5u c5b c5c c5t)
                      (present (decodeString zcbor 55)))

end IdCredMap

/-- The credential identifiers that `id_cred_x_encode` can write. -/
inductive IdCredX where
  | kid (value : Int32)
  | x5chain (value : Bytes)
  | x5t (alg : Int32) (hash : Bytes)
  deriving DecidableEq, Repr

/-- The map that `cbor_encode_id_cred_x_map` writes for an identifier. -/
def IdCredX.encoding (cbor : CborMapEncoder) : IdCredX → Bytes
  | .kid value => cbor.map [(cbor.uint32 4, cbor.int32 value.toInt)]
  | .x5chain value => cbor.map [(cbor.uint32 33, cbor.bstr value)]
  | .x5t alg hash =>
      cbor.map
        [(cbor.uint32 34, cbor.list [cbor.int32 alg.toInt, cbor.bstr hash])]

section

variable (platform : EdhocPlatform)

/-- `id_cred_x_encode`. -/
def idCredXEncode (idCredX : IdCredX) (idCredXLen : Nat) : Outcome Bytes :=
  cborEncode (idCredX.encoding platform.cbor) idCredXLen

/-- `cbor_decode_id_cred_x_map`. -/
def cborDecodeIdCredXMap (idCred : Bytes) : Outcome IdCredMap :=
  tryExpect
    (Decoding.decode (IdCredMap.decode platform.zcbor) 1 idCred)

/-- `id_cred2kid` into a buffer of `KID_DEFAULT_SIZE` bytes. -/
def idCred2Kid (idCred : Bytes) : Outcome Bytes := do
  let map ← cborDecodeIdCredXMap platform idCred
  match map.kid with
  | some kid => cborEncode (platform.cbor.int32 kid.toInt) kidDefaultSize
  | none => .ok []

/-! ## Plaintexts -/

/-- The `ID_CRED_x` of a plaintext. -/
inductive PlaintextIdCred where
  | map (value : IdCredMap)
  | bstr (value : ByteArrayView)
  | int (value : Int32)
  deriving DecidableEq, Repr

/-- `struct plaintext`. -/
structure Plaintext where
  idCredX : PlaintextIdCred
  sgnOrMacX : ByteArrayView
  adX : Option ByteArrayView
  deriving DecidableEq, Repr

/-- `decode_plaintext`. -/
def Plaintext.decode (zcbor : ZcborDecoder) : Decoding Plaintext :=
  Decoding.andThen
    (Decoding.orElse
      (Decoding.asMember PlaintextIdCred.map (IdCredMap.decode zcbor))
      (Decoding.orElse
        (Decoding.asMember PlaintextIdCred.bstr (Decoding.string zcbor.bstr))
        (Decoding.asMember PlaintextIdCred.int (Decoding.item zcbor.int32))))
    fun idCredX =>
      Decoding.andThen (Decoding.string zcbor.bstr) fun sgnOrMacX =>
        Decoding.asMember (Plaintext.mk idCredX sgnOrMacX)
          (Decoding.present (Decoding.string zcbor.bstr))

/-- `cbor_decode_plaintext`. -/
def cborDecodePlaintext (ptxt : Bytes) : Outcome Plaintext :=
  tryExpect (Decoding.decode (Plaintext.decode platform.zcbor) 3 ptxt)

/-- An `int32_t` in memory, least significant byte first. -/
def int32OfBytes : Bytes → Outcome Int32
  | a :: b :: c :: d :: _ =>
      .ok (Int32.ofInt (a.toNat + 0x100 * b.toNat + 0x10000 * c.toNat +
        0x1000000 * d.toNat : Nat))
  | _ => undefinedBehaviour

/-- The certificate hash that `plaintext_split` hands to `id_cred_x_encode`.
It takes the algorithm for an integer; of a text this is a part of its
address. -/
def certHashIdCredX (x5t : CertHash) : Outcome IdCredX :=
  match x5t.alg with
  | .int value => .ok (.x5t value x5t.hash.content)
  | .tstr _ => undefinedBehaviour

/-- The first half of `plaintext_split`: what it writes to the buffer for
`ID_CRED_x`, which is nothing for a map without `x5chain` and `x5t`.  Of a byte
string it takes four bytes, however long it is. -/
def plaintextIdCred (idCredXLen : Nat) :
    PlaintextIdCred → Outcome (Option Bytes)
  | .map value => do
      let afterChain ←
        match value.x5chain with
        | some x5chain => do
            let written ←
              idCredXEncode platform (.x5chain x5chain.content) idCredXLen
            .ok (some written)
        | none => .ok none
      match value.x5t with
      | some x5t => do
          let idCredX ← certHashIdCredX x5t
          let written ←
            idCredXEncode platform idCredX
              (match afterChain with
                | some earlier => earlier.length
                | none => idCredXLen)
          .ok (some written)
      | none => .ok afterChain
  | .bstr value => do
      let kid ← int32OfBytes value.ptr
      let written ← idCredXEncode platform (.kid kid) idCredXLen
      .ok (some written)
  | .int value => do
      let written ← idCredXEncode platform (.kid value) idCredXLen
      .ok (some written)

/-- What `plaintext_split` writes.  `none` is a buffer it leaves as it was. -/
structure SplitPlaintext where
  idCredX : Option Bytes
  signOrMac : Bytes
  ad : Bytes
  deriving DecidableEq, Repr

/-- `plaintext_split` into the buffers of its two callers. -/
def plaintextSplit (ptxt : Bytes) (adLen : Nat) : Outcome SplitPlaintext := do
  let p ← cborDecodePlaintext platform ptxt
  let idCredX ← plaintextIdCred platform idCredDefaultSize p.idCredX
  let signOrMac ←
    memcpyS sgnOrMacDefaultSize p.sgnOrMacX.ptr p.sgnOrMacX.len
  match p.adX with
  | some adX => do
      let ad ← memcpyS adLen adX.ptr adX.len
      .ok ⟨idCredX, signOrMac, ad⟩
  | none => .ok ⟨idCredX, signOrMac, []⟩

end

end UoscoreUedhoc.Edhoc

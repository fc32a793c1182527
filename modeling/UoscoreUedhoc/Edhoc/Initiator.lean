import UoscoreUedhoc.Edhoc.Ciphertext
import UoscoreUedhoc.Edhoc.Credentials
import UoscoreUedhoc.Edhoc.Messages

/-!
# The initiator

`initiator.c`.  The buffers that the application hands over for `PRK_4x3m` and
`TH_4` have the sizes `PRK_DEFAULT_SIZE` and `SHA_DEFAULT_SIZE`.

The copies that `msg2_parse` makes are recorded with the string they come from
and the room there is at their destination.
-/

namespace UoscoreUedhoc.Edhoc

open UoscoreUedhoc

/-! ## Structures -/

/-- `struct edhoc_initiator_context`. -/
structure InitiatorContext where
  msg4 : Bool
  cI : Cx
  method : Int32
  suitesI : Bytes
  ead1 : Bytes
  ead3 : Bytes
  idCredI : Bytes
  credI : Bytes
  gX : Bytes
  x : Bytes
  i : Bytes
  skI : Bytes
  pkI : Bytes
  deriving DecidableEq, Repr

/-- The credentials of the other party and the sizes of the buffers for its
application data that the application of the initiator hands over. -/
structure InitiatorBuffers where
  credRArray : List OtherPartyCred
  ead2Len : Nat
  ead4Len : Nat
  deriving DecidableEq, Repr

/-! ## Parsing `message_2` -/

/-- A copy of `len` bytes from `offset` on of a decoded string of the given
length, to a place with room for `room` bytes. -/
structure Copy where
  string : Nat
  offset : Nat
  len : Nat
  room : Nat
  deriving DecidableEq, Repr

/-- `_memcpy_s` from a decoded string, told that there is room for `destLen`
bytes where there is room for `room`. -/
def copyFrom (string : ByteArrayView) (offset len destLen room : Nat) :
    Update (List Copy) Bytes := do
  .lift (checkBufferSize destLen len)
  modify fun copies => copies ++ [⟨string.len, offset, len, room⟩]
  .lift
    (if string.ptr.length < offset + len ∨ room < len then
      undefinedBehaviour
    else
      .ok ((string.ptr.drop offset).take len))

/-- `c_x_set` on a structure that `c_x_init` has given a buffer of `bufLen`
bytes.  For a byte string it sets the length of the buffer to that of the string
before it copies. -/
def cxSet (bufLen : Nat) : CxItem → Update (List Copy) Cx
  | .int value => pure (.int value)
  | .bstr value => do
      let copied ← copyFrom value 0 value.len value.len bufLen
      pure (.bstr copied)

/-- What `msg2_parse` writes. -/
structure ParsedMsg2 where
  gY : Bytes
  ciphertext2 : Bytes
  cR : Cx
  deriving DecidableEq, Repr

/-- The string goes on to the end of the buffer of the message. -/
def extendView (behind : Bytes) (view : ByteArrayView) : ByteArrayView :=
  ⟨view.len, view.ptr ++ behind⟩

/-- A decoded identifier in the buffer of the message. -/
def CxItem.extend (behind : Bytes) : CxItem → CxItem
  | .int value => .int value
  | .bstr value => .bstr (extendView behind value)

/-- `cbor_decode_m2`. -/
def cborDecodeM2 (platform : EdhocPlatform) (msg2 : Bytes) : Outcome M2 :=
  tryExpect (Decoding.decode (M2.decode platform.zcbor) 2 msg2)

/-- `msg2_parse` of a message with other bytes behind it in its buffer.
`cRLen` is the size of the buffer given to `c_x_init`. -/
def msg2Parse (platform : EdhocPlatform) (msg2 behind : Bytes)
    (gYLen cRLen ciphertext2Len : Nat) : Update (List Copy) ParsedMsg2 := do
  let m ← .lift (cborDecodeM2 platform msg2)
  let gYCiphertext2 := extendView behind m.gYCiphertext2
  let gY ← copyFrom gYCiphertext2 0 gYLen gYLen gYLen
  let ciphertext2 ←
    copyFrom gYCiphertext2 gYLen (uint32 (gYCiphertext2.len - gYLen))
      ciphertext2Len ciphertext2Len
  let cR ← cxSet cRLen (m.cR.extend behind)
  pure ⟨gY, ciphertext2, cR⟩

/-! ## The messages -/

section

variable (platform : EdhocPlatform)

/-- `msg1_gen`.  The array of the suites in `struct message_1` has room for
ten, and without a suite its choice is not set. -/
def msg1Gen (c : InitiatorContext) : Outcome Bytes :=
  if c.suitesI.length = 0 ∨ 10 < c.suitesI.length then
    undefinedBehaviour
  else
    cborEncode
      (platform.cbor.int32 c.method.toInt ++
        encodeSuitesI platform.cbor c.suitesI ++
        platform.cbor.bstr c.gX ++
        c.cI.encode platform.cbor ++
        if c.ead1.length ≠ 0 then platform.cbor.bstr c.ead1 else [])
      msg1DefaultSize

/-- The text `"MAC_2"`. -/
def mac2Label : Bytes :=
  [0x4D, 0x41, 0x43, 0x5F, 0x32]

/-- The text `"MAC_3"`. -/
def mac3Label : Bytes :=
  [0x4D, 0x41, 0x43, 0x5F, 0x33]

/-- The last suite of the list, which the initiator has selected. -/
def selectedSuite (suitesI : Bytes) : Outcome Suite :=
  match suitesI.getLast? with
  | some label => getSuite label
  | none => undefinedBehaviour

/-- What `msg3_gen` leaves to its caller. -/
structure Msg3Output where
  msg3 : Bytes
  suite : Suite
  ead2 : Bytes
  prk4x3m : Bytes
  th4 : Bytes
  deriving DecidableEq, Repr

/-- The bytes of the buffer `rc->msg2` behind the message. -/
def behindMsg2 (msg2 : Bytes) : Bytes :=
  List.replicate (msg2DefaultSize - msg2.length) 0

/-- What `msg3_gen` has when it is about to check the authenticity of the
responder. -/
structure OpenedMsg2 where
  suite : Suite
  staticDhI : Bool
  staticDhR : Bool
  gY : Bytes
  ciphertext2 : Bytes
  th2 : Bytes
  prk3e2m : Bytes
  idCredR : Bytes
  retrieved : RetrievedCred
  ead2 : Bytes
  signOrMac : Bytes
  deriving DecidableEq, Repr

/-- `msg3_gen` up to the check of the authenticity of the responder. -/
def msg2Open (c : InitiatorContext) (buffers : InitiatorBuffers)
    (msg1 msg2 : Bytes) : Outcome OpenedMsg2 := do
  let suite ← selectedSuite c.suitesI
  let authenticationType :=
    authenticationTypeGet c.method ⟨some false, some false⟩
  let staticDhI ← orUndefined authenticationType.staticDhI
  let staticDhR ← orUndefined authenticationType.staticDhR
  let parsed ←
    (Update.exec
      (msg2Parse platform msg2 (behindMsg2 msg2)
        (getEcdhPkLen suite.edhocEcdh) cRDefaultSize ciphertext2DefaultSize)
      []).1
  let gXy ←
    tryExpect
      (platform.crypto.sharedSecretDerive suite.edhocEcdh c.x parsed.gY)
  let th2 ←
    th2Calculate platform suite.edhocHash msg1 parsed.gY parsed.cR
  let prk2e ←
    tryExpect (platform.crypto.hkdfExtract suite.edhocHash [] gXy)
  let split ←
    ciphertextDecryptSplit platform .ciphertext2 suite buffers.ead2Len prk2e
      th2 parsed.ciphertext2
  let idCredR ← orUndefined split.idCredX
  let retrieved ←
    retrieveCred platform staticDhR buffers.credRArray idCredR
  let prk3e2m ← prkDerive platform staticDhR suite prk2e retrieved.g c.x
  .ok
    { suite := suite
      staticDhI := staticDhI
      staticDhR := staticDhR
      gY := parsed.gY
      ciphertext2 := parsed.ciphertext2
      th2 := th2
      prk3e2m := prk3e2m
      idCredR := idCredR
      retrieved := retrieved
      ead2 := split.ad
      signOrMac := split.signOrMac }

/-- `msg3_gen`. -/
def msg3Gen (stack : Stack) (c : InitiatorContext)
    (buffers : InitiatorBuffers) (msg1 msg2 : Bytes) :
    Outcome Msg3Output := do
  let opened ← msg2Open platform c buffers msg1 msg2
  let suite := opened.suite
  signatureOrMacVerify platform stack opened.staticDhR suite
    opened.retrieved.pk opened.prk3e2m opened.th2 opened.idCredR
    opened.retrieved.cred opened.ead2 mac2Label opened.signOrMac
  let th3 ←
    th3Calculate platform suite.edhocHash opened.th2 opened.ciphertext2
  let prk4x3m ←
    prkDerive platform opened.staticDhI suite opened.prk3e2m opened.gY c.i
  let signOrMac3 ←
    signatureOrMacGenerate platform opened.staticDhI suite c.skI c.pkI
      prk4x3m th3 c.idCredI c.credI c.ead3 mac3Label
  let ciphertext3 ←
    ciphertextGen platform .ciphertext3 suite c.idCredI signOrMac3 c.ead3
      opened.prk3e2m th3
  checkBufferSize ciphertext3DefaultSize
    (ciphertext3.length + encodingOverhead)
  let msg3 ← encodeByteString platform ciphertext3 msg2DefaultSize
  let th4 ← th4Calculate platform suite.edhocHash th3 ciphertext3
  .ok ⟨msg3, suite, opened.ead2, prk4x3m, th4⟩

/-- `msg4_process`. -/
def msg4Process (suite : Suite) (ead4Len : Nat) (prk4x3m th4 msg4 : Bytes) :
    Outcome Bytes := do
  let ciphertext4 ← decodeByteString platform msg4 ciphertext4DefaultSize
  ciphertext4DecryptSplit platform suite ead4Len prk4x3m th4 ciphertext4

/-! ## The run -/

/-- What `edhoc_initiator_run` leaves to the application.  `EAD_4` is there
when message 4 is used. -/
structure InitiatorOutput where
  ead2 : Bytes
  ead4 : Option Bytes
  prk4x3m : Bytes
  th4 : Bytes
  deriving DecidableEq, Repr

/-- `edhoc_initiator_run`. -/
def edhocInitiatorRun (stack : Stack) (c : InitiatorContext)
    (buffers : InitiatorBuffers) : Update Channel InitiatorOutput := do
  let msg1 ← .lift (msg1Gen platform c)
  tx msg1
  let msg2 ← rx msg2DefaultSize
  let output ← .lift (msg3Gen platform stack c buffers msg1 msg2)
  tx output.msg3
  if c.msg4 then do
    let msg4 ← rx msg4DefaultSize
    let ead4 ←
      .lift
        (msg4Process platform output.suite buffers.ead4Len output.prk4x3m
          output.th4 msg4)
    pure ⟨output.ead2, some ead4, output.prk4x3m, output.th4⟩
  else
    pure ⟨output.ead2, none, output.prk4x3m, output.th4⟩

end

end UoscoreUedhoc.Edhoc

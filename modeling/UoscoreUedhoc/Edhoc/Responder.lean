import UoscoreUedhoc.Edhoc.Initiator

/-!
# The responder

`responder.c`.  The buffers for `PRK_4x3m` and `TH_4` have the sizes
`PRK_DEFAULT_SIZE` and `SHA_DEFAULT_SIZE` here too.
-/

namespace UoscoreUedhoc.Edhoc

open UoscoreUedhoc

/-! ## Structures -/

/-- `struct edhoc_responder_context`. -/
structure ResponderContext where
  msg4 : Bool
  cR : Cx
  suitesR : Bytes
  gY : Bytes
  y : Bytes
  r : Bytes
  ead2 : Bytes
  ead4 : Bytes
  idCredR : Bytes
  credR : Bytes
  skR : Bytes
  pkR : Bytes
  deriving DecidableEq, Repr

/-- The credentials of the other party and the sizes of the buffers for its
application data that the application of the responder hands over. -/
structure ResponderBuffers where
  credIArray : List OtherPartyCred
  ead1Len : Nat
  ead3Len : Nat
  deriving DecidableEq, Repr

section

variable (platform : EdhocPlatform)

/-! ## `message_1` -/

/-- `cbor_decode_message_1`. -/
def cborDecodeMessage1 (msg1 : Bytes) : Outcome Message1 :=
  tryExpect (Decoding.decode (Message1.decode platform.zcbor) 5 msg1)

/-- What `msg1_parse` writes.  Without `EAD_1` the buffer for it is left as it
was. -/
structure ParsedMsg1 where
  method : Int32
  suitesI : Bytes
  gX : Bytes
  cI : Cx
  ead1 : Option Bytes
  deriving DecidableEq, Repr

/-- The part of `msg1_parse` that takes `SUITES_I`. -/
def parseSuitesI (suitesILen : Nat) : SuitesIItem → Outcome Bytes
  | .int value => .ok [byteOfInt32 value]
  | .suite values =>
      if suitesILen < values.length then
        fail .suitesIListToLong
      else
        .ok (values.map byteOfInt32)

/-- The part of `msg1_parse` that takes `C_I`.  Of a byte string it takes no
byte. -/
def parseCI : CxItem → Cx
  | .int value => .int value
  | .bstr _ => .bstr []

/-- `msg1_parse` into the buffers of `msg2_gen`. -/
def msg1Parse (msg1 : Bytes) (ead1Len : Nat) : Outcome ParsedMsg1 := do
  let m ← cborDecodeMessage1 platform msg1
  let suitesI ← parseSuitesI 5 m.suitesI
  let gX ← memcpyS gXDefaultSize m.gX.ptr m.gX.len
  match m.ead1 with
  | some view => do
      let ead1 ← memcpyS ead1Len view.ptr view.len
      .ok ⟨m.method, suitesI, gX, parseCI m.cI, some ead1⟩
  | none => .ok ⟨m.method, suitesI, gX, parseCI m.cI, none⟩

/-- `selected_suite_is_supported`.  The index of its loop has eight bits, so
without a match the loop over more than 255 suites does not end. -/
def selectedSuiteIsSupported (selected : UInt8) (suitesR : Bytes) :
    Outcome Bool :=
  if selected ∈ suitesR.take 256 then
    .ok true
  else if 255 < suitesR.length then
    undefinedBehaviour
  else
    .ok false

/-! ## `message_2` -/

/-- `msg2_encode`. -/
def msg2Encode (gY : Bytes) (cR : Cx) (ciphertext2 : Bytes) :
    Outcome Bytes := do
  let gYCiphertext2Len := (gY.length + ciphertext2.length) % 2 ^ 32
  checkBufferSize (gYDefaultSize + ciphertext2DefaultSize) gYCiphertext2Len
  let gYCiphertext2 ←
    memcpy (gYDefaultSize + ciphertext2DefaultSize) (gY ++ ciphertext2)
  cborEncode (encodeM2 platform.cbor gYCiphertext2 cR) msg2DefaultSize

/-- What `msg2_gen` leaves to its caller and to `msg3_process`. -/
structure Msg2Output where
  msg2 : Bytes
  suite : Suite
  staticDhI : Bool
  prk3e2m : Bytes
  th3 : Bytes
  ead1 : Option Bytes
  deriving DecidableEq, Repr

/-- What `msg2_gen` takes from `message_1`.  The variable `static_dh_r` is only
written for a method that exists. -/
structure SelectedSuite where
  suite : Suite
  staticDhI : Bool
  staticDhR : Option Bool
  gX : Bytes
  ead1 : Option Bytes
  deriving DecidableEq, Repr

/-- The first part of `msg2_gen`, which takes `message_1`. -/
def msg1Process (c : ResponderContext) (buffers : ResponderBuffers)
    (msg1 : Bytes) : Outcome SelectedSuite := do
  let parsed ← msg1Parse platform msg1 buffers.ead1Len
  let selected ← orUndefined parsed.suitesI.getLast?
  let supported ← selectedSuiteIsSupported selected c.suitesR
  if supported then do
    let suite ← getSuite selected
    let authenticationType :=
      authenticationTypeGet parsed.method ⟨some false, none⟩
    let staticDhI ← orUndefined authenticationType.staticDhI
    .ok ⟨suite, staticDhI, authenticationType.staticDhR, parsed.gX,
      parsed.ead1⟩
  else
    fail .errorMessageSent

/-- `msg2_gen`. -/
def msg2Gen (c : ResponderContext) (buffers : ResponderBuffers)
    (msg1 : Bytes) : Outcome Msg2Output := do
  let selected ← msg1Process platform c buffers msg1
  let suite := selected.suite
  let th2 ← th2Calculate platform suite.edhocHash msg1 c.gY c.cR
  let gXy ←
    tryExpect
      (platform.crypto.sharedSecretDerive suite.edhocEcdh c.y selected.gX)
  let prk2e ←
    tryExpect (platform.crypto.hkdfExtract suite.edhocHash [] gXy)
  let staticDhR ← orUndefined selected.staticDhR
  let prk3e2m ← prkDerive platform staticDhR suite prk2e selected.gX c.r
  checkBufferSize signatureDefaultSize (getSignatureLen suite.edhocSign)
  let signOrMac2 ←
    signatureOrMacGenerate platform staticDhR suite c.skR c.pkR
      prk3e2m th2 c.idCredR c.credR c.ead2 mac2Label
  let ciphertext2 ←
    ciphertextGen platform .ciphertext2 suite c.idCredR signOrMac2 c.ead2
      prk2e th2
  let msg2 ← msg2Encode platform c.gY c.cR ciphertext2
  let th3 ← th3Calculate platform suite.edhocHash th2 ciphertext2
  .ok ⟨msg2, suite, selected.staticDhI, prk3e2m, th3, selected.ead1⟩

/-! ## `message_3` -/

/-- What `msg3_process` leaves to its caller. -/
structure ProcessedMsg3 where
  ead3 : Bytes
  prk4x3m : Bytes
  th4 : Bytes
  deriving DecidableEq, Repr

/-- What `msg3_process` has when it is about to check the authenticity of the
initiator. -/
structure OpenedMsg3 where
  ciphertext3 : Bytes
  prk4x3m : Bytes
  idCredI : Bytes
  retrieved : RetrievedCred
  ead3 : Bytes
  signOrMac : Bytes
  deriving DecidableEq, Repr

/-- `msg3_process` up to the check of the authenticity of the initiator. -/
def msg3Open (c : ResponderContext) (buffers : ResponderBuffers)
    (rc : Msg2Output) (msg3 : Bytes) : Outcome OpenedMsg3 := do
  let ciphertext3 ← decodeByteString platform msg3 ciphertext3DefaultSize
  let split ←
    ciphertextDecryptSplit platform .ciphertext3 rc.suite buffers.ead3Len
      rc.prk3e2m rc.th3 ciphertext3
  let idCredI ← orUndefined split.idCredX
  let retrieved ←
    retrieveCred platform rc.staticDhI buffers.credIArray idCredI
  let prk4x3m ←
    prkDerive platform rc.staticDhI rc.suite rc.prk3e2m retrieved.g c.y
  .ok
    { ciphertext3 := ciphertext3
      prk4x3m := prk4x3m
      idCredI := idCredI
      retrieved := retrieved
      ead3 := split.ad
      signOrMac := split.signOrMac }

/-- `msg3_process`. -/
def msg3Process (stack : Stack) (c : ResponderContext)
    (buffers : ResponderBuffers) (rc : Msg2Output) (msg3 : Bytes) :
    Outcome ProcessedMsg3 := do
  let opened ← msg3Open platform c buffers rc msg3
  signatureOrMacVerify platform stack rc.staticDhI rc.suite
    opened.retrieved.pk opened.prk4x3m rc.th3 opened.idCredI
    opened.retrieved.cred opened.ead3 mac3Label opened.signOrMac
  let th4 ←
    th4Calculate platform rc.suite.edhocHash rc.th3 opened.ciphertext3
  .ok ⟨opened.ead3, opened.prk4x3m, th4⟩

/-! ## `message_4` -/

/-- `msg4_gen`. -/
def msg4Gen (c : ResponderContext) (suite : Suite) (prk4x3m th4 : Bytes) :
    Outcome Bytes := do
  let ciphertext4 ←
    ciphertextGen platform .ciphertext4 suite [] [] c.ead4 prk4x3m th4
  encodeByteString platform ciphertext4 msg4DefaultSize

/-! ## The run -/

/-- What `edhoc_responder_run` leaves to the application. -/
structure ResponderOutput where
  ead1 : Option Bytes
  ead3 : Bytes
  prk4x3m : Bytes
  th4 : Bytes
  deriving DecidableEq, Repr

/-- `edhoc_responder_run`. -/
def edhocResponderRun (stack : Stack) (c : ResponderContext)
    (buffers : ResponderBuffers) : Update Channel ResponderOutput := do
  let msg1 ← rx msg1DefaultSize
  let rc ← .lift (msg2Gen platform c buffers msg1)
  tx rc.msg2
  let msg3 ← rx msg2DefaultSize
  let output ← .lift (msg3Process platform stack c buffers rc msg3)
  if c.msg4 then do
    let msg4 ←
      .lift (msg4Gen platform c rc.suite output.prk4x3m output.th4)
    tx msg4
    pure ⟨rc.ead1, output.ead3, output.prk4x3m, output.th4⟩
  else
    pure ⟨rc.ead1, output.ead3, output.prk4x3m, output.th4⟩

end

end UoscoreUedhoc.Edhoc

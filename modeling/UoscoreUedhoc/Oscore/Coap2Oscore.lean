import UoscoreUedhoc.Oscore.SecurityContext

/-!
# From CoAP to OSCORE

`coap2oscore.c`: the division of the options into classes, the plaintext, the
OSCORE option, the OSCORE packet, and `coap2oscore` itself.
-/

namespace UoscoreUedhoc.Oscore

open UoscoreUedhoc

/-! ## Dividing the options -/

/-- What `e_u_options_extract` computes. -/
structure EUOptions where
  eOptions : List OCoapOption
  eOptionsLen : UInt16
  uOptions : List OCoapOption
  deriving DecidableEq, Repr

/-- The extra bytes `e_u_options_extract` counts for a delta or a length. -/
def extraBytes (value : UInt16) : UInt16 :=
  if 13 < value ∧ value < 243 then 1 else if 243 ≤ value then 2 else 0

/-- `e_u_options_extract`, with `temp_option_nr` and the delta sums of the two
classes. -/
def euOptionsExtract :
    UInt8 → UInt8 → UInt8 → List OCoapOption → EUOptions
  | _, _, _, [] => ⟨[], 0, []⟩
  | optionNr, eDeltaSum, uDeltaSum, option :: options =>
      let optionNr := optionNr + option.delta.toUInt8
      if isClassE optionNr.toUInt16 then
        let delta := optionNr.toUInt16 - eDeltaSum.toUInt16
        let rest :=
          euOptionsExtract optionNr (eDeltaSum + delta.toUInt8) uDeltaSum
            options
        { rest with
          eOptions :=
            { option with delta, optionNumber := optionNr } :: rest.eOptions
          eOptionsLen :=
            1 + extraBytes option.delta + extraBytes option.len.toUInt16 +
              option.len.toUInt16 + rest.eOptionsLen }
      else
        let delta := optionNr.toUInt16 - uDeltaSum.toUInt16
        let rest :=
          euOptionsExtract optionNr eDeltaSum (uDeltaSum + delta.toUInt8)
            options
        { rest with
          uOptions :=
            { option with delta, optionNumber := optionNr } ::
              rest.uOptions }

/-! ## Plaintext -/

/-- The first `len` bytes of a buffer into which `bytes` have been written. -/
def writtenPrefix (len : Nat) (bytes : Bytes) : Outcome Bytes :=
  if bytes.length < len then undefinedBehaviour else .ok (bytes.take len)

/-- `plaintext_len` of `coap2oscore`. -/
def plaintextLen (eOptionsLen : UInt16) (payloadLen : Nat) : Nat :=
  uint32
    (1 + eOptionsLen.toNat + if payloadLen = 0 then 0 else 1 + payloadLen)

/-- `plaintext_setup` into `len` bytes of a buffer of `MAX_PLAINTEXT_LEN`
bytes. -/
def plaintextSetup (packet : OCoapPacket) (eOptions : List OCoapOption)
    (len : Nat) : Outcome Bytes := do
  let optBytesLen := maximalOptionsLen eOptions % 2 ^ 16
  checkBufferSize maxEOptions optBytesLen
  let optionBytes ← optionsIntoByteString optBytesLen eOptions
  let optionBytes ←
    memcpyS (uint32 (len - 1)) optionBytes optionBytes.length
  let front := packet.header.code :: optionBytes
  if packet.payloadLen = 0 then
    writtenPrefix len front
  else
    let offset := front.length + 1
    let payload ←
      memcpyS (uint32 (len - offset)) packet.payload packet.payloadLen
    if maxPlaintextLen < offset + payload.length then
      undefinedBehaviour
    else
      writtenPrefix len (front ++ 0xFF :: payload)

/-- `plaintext_encrypt`. -/
def plaintextEncrypt (platform : Platform) (c : Context)
    (plaintext : Bytes) : Outcome Bytes :=
  oscoreCoseEncrypt platform plaintext c.rrc.nonce c.rrc.aad c.sc.senderKey

/-! ## OSCORE option -/

def compOscoreOptKidcHMask : UInt8 := 0x10
def compOscoreOptKidKMask : UInt8 := 0x08
def compOscoreOptPivNMask : UInt8 := 0x07

/-- `get_oscore_opt_val_len`. -/
def getOscoreOptValLen (piv kid kidContext : Bytes) : UInt8 :=
  let l := UInt8.ofNat (piv.length + kidContext.length + kid.length)
  let l := if l = 0 then l else l + 1
  if kidContext.length = 0 then l else l + 1

/-- Write `bytes` at an offset of a buffer. -/
def writeAt (buffer : Bytes) (offset : Nat) (bytes : Bytes) : Bytes :=
  buffer.take offset ++ bytes ++ buffer.drop (offset + bytes.length)

/-- Set bits of the first byte of a buffer. -/
def orFirst (buffer : Bytes) (bits : UInt8) : Bytes :=
  buffer.modifyHead (· ||| bits)

/-- The part of `oscore_option_generate` that writes the Partial IV, with the
offset of `temp_ptr` behind it. -/
def writePiv (piv : Bytes) (len : UInt8) (value : Bytes) :
    Outcome (Bytes × Nat) :=
  if piv.length = 0 then
    .ok (value, 0)
  else do
    let value := orFirst value (UInt8.ofNat piv.length)
    let piv ← memcpyS (uint32 (len.toNat - 1)) piv piv.length
    .ok (writeAt value 1 piv, 1 + piv.length)

/-- The part of `oscore_option_generate` that writes the KID context. -/
def writeKidContext (kidContext : Bytes) (len : UInt8)
    (value : Bytes) (tempPtr : Nat) : Outcome (Bytes × Nat) :=
  if kidContext.length = 0 then
    .ok (value, tempPtr)
  else do
    let value := orFirst value compOscoreOptKidcHMask
    let value := writeAt value tempPtr [UInt8.ofNat kidContext.length]
    let kidContext ←
      memcpyS (uint32 (len.toNat - (tempPtr + 1)))
        kidContext kidContext.length
    .ok
      (writeAt value (tempPtr + 1) kidContext,
        tempPtr + 1 + kidContext.length)

/-- The part of `oscore_option_generate` that writes the KID. -/
def writeKid (kid : Bytes) (len : UInt8)
    (value : Bytes) (tempPtr : Nat) : Outcome Bytes :=
  let value := orFirst value compOscoreOptKidKMask
  if kid.length = 0 then
    .ok value
  else do
    let kid ← memcpyS (uint32 (len.toNat - tempPtr)) kid kid.length
    .ok (writeAt value tempPtr kid)

/-- `oscore_option_generate` for an option of length `len`: its value. -/
def oscoreOptionGenerate (piv kid kidContext : Bytes) (len : UInt8) :
    Outcome Bytes :=
  if len = 0 then
    .ok []
  else do
    let value := List.replicate len.toNat 0
    let (value, tempPtr) ← writePiv piv len value
    let (value, tempPtr) ← writeKidContext kidContext len value tempPtr
    writeKid kid len value tempPtr

/-- The OSCORE option `coap2oscore` builds, with a delta that
`oscore_pkg_generate` does not read. -/
def oscoreOption (value : Bytes) : OCoapOption where
  delta := 0
  len := UInt8.ofNat value.length
  value := value
  optionNumber := coapOptionOscore

/-- The branch of `coap2oscore` for requests: take a sequence number, update
the request-response context and build the value of the OSCORE option. -/
def requestOption (platform : Platform) (options : List OCoapOption) :
    Update Context Bytes := do
  let ssn := (← get).sc.senderSeqNum
  modify fun c => { c with sc := { c.sc with senderSeqNum := ssn + 1 } }
  let piv ← .lift (senderSeqNum2piv ssn)
  modify fun c => { c with rrc := { c.rrc with piv } }
  contextUpdate platform .client options nullArray nullArray
  let c ← get
  let len := getOscoreOptValLen c.rrc.piv c.rrc.kid c.rrc.kidContext
  if oscoreOptValueLen < len.toNat then
    .lift (fail .oscoreValuelenToLongError)
  else
    .lift (oscoreOptionGenerate c.rrc.piv c.rrc.kid c.rrc.kidContext len)

/-- Whether the code of a packet is of the request class. -/
def isRequest (packet : OCoapPacket) : Bool :=
  codeClassMask &&& packet.header.code = requestClass

/-- The value of the OSCORE option `coap2oscore` builds: empty in
responses. -/
def optionValue (platform : Platform) (packet : OCoapPacket)
    (options : List OCoapOption) : Update Context Bytes :=
  if isRequest packet then requestOption platform options else pure []

/-! ## OSCORE packet -/

/-- The loop of `oscore_pkg_generate` that writes the options with their new
deltas. -/
def pkgOptions : UInt8 → List OCoapOption → List OCoapOption
  | _, [] => []
  | numberSum, option :: options =>
      let delta := option.optionNumber.toUInt16 - numberSum.toUInt16
      { option with delta } :: pkgOptions (numberSum + delta.toUInt8) options

/-- `oscore_pkg_generate`.  The OSCORE option goes in front of the first
U-option with a larger number; a 21st option is written behind the array. -/
def oscorePkgGenerate (packet : OCoapPacket) (uOptions : List OCoapOption)
    (ciphertext : Bytes) (option : OCoapOption) : Outcome OCoapPacket :=
  if maxOptionCount < uOptions.length + 1 then
    undefinedBehaviour
  else
    let notAfter : OCoapOption → Bool :=
      fun uOption => uOption.optionNumber ≤ coapOptionOscore
    .ok
      { header :=
          { packet.header with
            code :=
              if isRequest packet then codeReqPost else codeRespChanged }
        token := if packet.header.tkl = 0 then some [] else packet.token
        options :=
          some
            (pkgOptions 0
              (uOptions.takeWhile notAfter ++
                option :: uOptions.dropWhile notAfter))
        payloadLen := ciphertext.length
        payload := ciphertext }

/-! ## The conversion -/

/-- The part of `coap2oscore` between the parsed packet and the OSCORE
packet. -/
def coap2oscorePacket (platform : Platform) (packet : OCoapPacket) :
    Update Context OCoapPacket := do
  let options ← .lift (orUndefined packet.options)
  let eu := euOptionsExtract 0 0 0 options
  let len := plaintextLen eu.eOptionsLen packet.payloadLen
  .lift (checkBufferSize maxPlaintextLen len)
  let plaintext ← .lift (plaintextSetup packet eu.eOptions len)
  let value ← optionValue platform packet options
  .lift (checkBufferSize maxCiphertextLen (plaintext.length + authTagLen))
  let c ← get
  let ciphertext ← .lift (plaintextEncrypt platform c plaintext)
  .lift
    (oscorePkgGenerate packet eu.uOptions ciphertext (oscoreOption value))

/-- The packets that `coap2oscore` copies without protection. -/
def isMessagingLayer (packet : OCoapPacket) : Bool :=
  packet.header.code = codeEmpty ∧ packet.header.type = typeAck

/-- The branch of `coap2oscore` for those. -/
def copyPacket (input : Bytes) (capacity : Nat) : Outcome Bytes :=
  if capacity < input.length then undefinedBehaviour else .ok input

/-- `coap2oscore` into an output buffer of `capacity` bytes. -/
def coap2oscore (platform : Platform) (input : Bytes) (capacity : Nat) :
    Update Context Bytes := do
  let packet ← .lift (buf2coap input)
  if isMessagingLayer packet then
    .lift (copyPacket input capacity)
  else do
    let oscorePacket ← coap2oscorePacket platform packet
    .lift (coap2buf oscorePacket capacity)

/-! ## What a successful conversion computes -/

open Update

/-- A context that has taken its next sequence number as the Partial IV. -/
def Context.nextRequest (c : Context) : Context :=
  { c with
    sc := { c.sc with senderSeqNum := c.sc.senderSeqNum + 1 }
    rrc := { c.rrc with piv := partialIv c.sc.senderSeqNum } }

/-- The length of the OSCORE option value of the request in a context. -/
def requestOptionLen (c : Context) : UInt8 :=
  getOscoreOptValLen c.rrc.piv c.rrc.kid c.rrc.kidContext

theorem requestOption_eq_ok {platform : Platform}
    {options : List OCoapOption} {c after : Context} {value : Bytes} :
    exec (requestOption platform options) c = (.ok value, after) ↔
      c.sc.senderSeqNum.toNat < 2 ^ 40 ∧
        ∃ nonce,
          createNonce c.rrc.kid (partialIv c.sc.senderSeqNum)
              c.cc.commonIv = .ok nonce ∧
            (requestAad platform.toCborEncoder c.nextRequest).length ≤
              c.rrc.aad.length ∧
            after =
              c.nextRequest.setNonceAndAad nonce
                (requestAad platform.toCborEncoder c.nextRequest) ∧
            (requestOptionLen after).toNat ≤ oscoreOptValueLen ∧
            oscoreOptionGenerate after.rrc.piv after.rrc.kid
              after.rrc.kidContext (requestOptionLen after) =
                .ok value := by
  unfold requestOption contextUpdate
  simp only [exec_get_bind, exec_modify_bind, exec_lift_bind, andThen_eq_ok,
    senderSeqNum2piv_eq_ok, exec_bind_eq_ok, nonceAndAadUpdate_eq_ok,
    exec_ite, exec_lift]
  constructor
  · rintro ⟨_, ⟨small, rfl⟩, _, between, ⟨nonce, created, fits, rfl⟩,
      generated⟩
    split at generated
    · cases generated
    · rename_i short
      simp only [Prod.mk.injEq] at generated
      obtain ⟨generated, rfl⟩ := generated
      exact
        ⟨small, nonce, created, fits, rfl, not_lt.mp short, generated⟩
  · rintro ⟨small, nonce, created, fits, rfl, short, generated⟩
    refine
      ⟨_, ⟨small, rfl⟩, PUnit.unit, _, ⟨nonce, created, fits, rfl⟩, ?_⟩
    exact (if_neg (not_lt.mpr short)).trans (Prod.ext generated rfl)

/-- A successful conversion of a packet that is not copied. -/
structure Protected (platform : Platform) (packet : OCoapPacket)
    (c after : Context) (oscorePacket : OCoapPacket) : Prop where
  ok :
    ∃ options plaintext value ciphertext,
      packet.options = some options ∧
        plaintextLen (euOptionsExtract 0 0 0 options).eOptionsLen
            packet.payloadLen ≤ maxPlaintextLen ∧
        plaintextSetup packet (euOptionsExtract 0 0 0 options).eOptions
            (plaintextLen (euOptionsExtract 0 0 0 options).eOptionsLen
              packet.payloadLen) = .ok plaintext ∧
        exec (optionValue platform packet options) c =
          (.ok value, after) ∧
        plaintextEncrypt platform after plaintext = .ok ciphertext ∧
        oscorePkgGenerate packet (euOptionsExtract 0 0 0 options).uOptions
            ciphertext (oscoreOption value) = .ok oscorePacket

theorem writtenPrefix_eq_ok {len : Nat} {bytes result : Bytes} :
    writtenPrefix len bytes = .ok result ↔
      len ≤ bytes.length ∧ result = bytes.take len := by
  unfold writtenPrefix
  by_cases short : bytes.length < len
  · rw [if_pos short]
    simp only [undefinedBehaviour, reduceCtorEq, false_iff, not_and]
    intro long
    omega
  · rw [if_neg short]
    simp only [Except.ok.injEq, not_lt.mp short, true_and, eq_comm]

theorem plaintextSetup_length {packet : OCoapPacket}
    {eOptions : List OCoapOption} {len : Nat} {plaintext : Bytes}
    (done : plaintextSetup packet eOptions len = .ok plaintext) :
    plaintext.length = len := by
  unfold plaintextSetup at done
  simp only [outcome_bind_eq_ok] at done
  obtain ⟨_, _, optionBytes, _, copied, _, done⟩ := done
  split at done
  · obtain ⟨enough, rfl⟩ := writtenPrefix_eq_ok.mp done
    exact List.length_take_of_le enough
  · rw [outcome_bind_eq_ok] at done
    obtain ⟨payload, _, done⟩ := done
    split at done
    · cases done
    · obtain ⟨enough, rfl⟩ := writtenPrefix_eq_ok.mp done
      exact List.length_take_of_le enough

theorem optionValue_eq_ok {platform : Platform} {packet : OCoapPacket}
    {options : List OCoapOption} {c after : Context} {value : Bytes} :
    exec (optionValue platform packet options) c = (.ok value, after) ↔
      if isRequest packet then
        exec (requestOption platform options) c = (.ok value, after)
      else
        value = [] ∧ after = c := by
  unfold optionValue
  cases isRequest packet with
  | false =>
      simp [eq_comm]
  | true =>
      simp

theorem coap2oscorePacket_eq_ok {platform : Platform}
    {packet oscorePacket : OCoapPacket} {c after : Context} :
    exec (coap2oscorePacket platform packet) c =
        (.ok oscorePacket, after) ↔
      Protected platform packet c after oscorePacket := by
  unfold coap2oscorePacket
  simp only [exec_lift_bind, andThen_eq_ok, exec_bind_eq_ok, exec_get_bind,
    orUndefined_eq_ok, checkBufferSize_eq_ok, exec_lift, Prod.mk.injEq]
  constructor
  · rintro ⟨options, present, _, short, plaintext, setup, value, between,
      request, _, _, ciphertext, encrypted, generated, rfl⟩
    exact
      ⟨options, plaintext, value, ciphertext, present, short, setup, request,
        encrypted, generated⟩
  · rintro ⟨options, plaintext, value, ciphertext, present, short, setup,
      request, encrypted, generated⟩
    refine
      ⟨options, present, (), short, plaintext, setup, value, after, request,
        (), ?_, ciphertext, encrypted, generated, rfl⟩
    rw [plaintextSetup_length setup]
    exact Nat.add_le_add_right short authTagLen

theorem copyPacket_eq_ok {input output : Bytes} {capacity : Nat} :
    copyPacket input capacity = .ok output ↔
      input.length ≤ capacity ∧ output = input := by
  unfold copyPacket
  by_cases short : capacity < input.length
  · rw [if_pos short]
    simp only [undefinedBehaviour, reduceCtorEq, false_iff, not_and]
    intro fits
    omega
  · rw [if_neg short]
    simp only [Except.ok.injEq, not_lt.mp short, true_and, eq_comm]

theorem coap2oscore_eq_ok {platform : Platform} {input output : Bytes}
    {capacity : Nat} {c after : Context} :
    exec (coap2oscore platform input capacity) c = (.ok output, after) ↔
      ∃ packet, buf2coap input = .ok packet ∧
        if isMessagingLayer packet then
          input.length ≤ capacity ∧ output = input ∧ after = c
        else
          ∃ oscorePacket,
            Protected platform packet c after oscorePacket ∧
              coap2buf oscorePacket capacity = .ok output := by
  unfold coap2oscore
  rw [exec_lift_bind, andThen_eq_ok]
  apply exists_congr
  intro packet
  apply and_congr_right
  intro _
  rw [exec_ite]
  by_cases messaging : isMessagingLayer packet = true
  · rw [if_pos messaging, if_pos messaging, exec_lift, Prod.mk.injEq,
      copyPacket_eq_ok, and_assoc, eq_comm (a := c)]
  · rw [if_neg messaging, if_neg messaging]
    simp only [exec_bind_eq_ok, exec_lift, coap2oscorePacket_eq_ok,
      Prod.mk.injEq]
    constructor
    · rintro ⟨oscorePacket, between, protectedPacket, converted, rfl⟩
      exact ⟨oscorePacket, protectedPacket, converted⟩
    · rintro ⟨oscorePacket, protectedPacket, converted⟩
      exact ⟨oscorePacket, after, protectedPacket, converted, rfl⟩

/-! ## What a conversion leaves unchanged -/

theorem requestOption_keeps (platform : Platform)
    (options : List OCoapOption) :
    Keeps SameKeys (requestOption platform options) := by
  unfold requestOption contextUpdate
  refine Keeps.bind Keeps.get ?_
  intro c
  refine Keeps.bind (Keeps.modify ?_) ?_
  · intro _
    exact ⟨rfl, rfl, rfl, rfl, rfl, rfl⟩
  · intro _
    refine Keeps.bind (Keeps.lift _) ?_
    intro piv
    refine Keeps.bind (Keeps.modify ?_) ?_
    · intro _
      exact ⟨rfl, rfl, rfl, rfl, rfl, rfl⟩
    · intro _
      refine Keeps.bind (nonceAndAadUpdate_keepsKeys platform options) ?_
      intro _
      refine Keeps.bind Keeps.get ?_
      intro _
      exact Keeps.ite (Keeps.lift _) (Keeps.lift _)

theorem coap2oscorePacket_keeps (platform : Platform)
    (packet : OCoapPacket) :
    Keeps SameKeys (coap2oscorePacket platform packet) := by
  unfold coap2oscorePacket
  refine Keeps.bind (Keeps.lift _) ?_
  intro options
  refine Keeps.bind (Keeps.lift _) ?_
  intro _
  refine Keeps.bind (Keeps.lift _) ?_
  intro plaintext
  refine Keeps.bind ?_ ?_
  · exact Keeps.ite (requestOption_keeps platform options) (Keeps.pure _)
  · intro value
    refine Keeps.bind (Keeps.lift _) ?_
    intro _
    refine Keeps.bind Keeps.get ?_
    intro c
    refine Keeps.bind (Keeps.lift _) ?_
    intro ciphertext
    exact Keeps.lift _

/-- Protecting a packet changes at most the sequence number and, in the
request-response context, the Partial IV, the nonce and the AAD. -/
theorem coap2oscore_keeps (platform : Platform) (input : Bytes)
    (capacity : Nat) :
    Keeps SameKeys (coap2oscore platform input capacity) := by
  unfold coap2oscore
  refine Keeps.bind (Keeps.lift _) ?_
  intro packet
  refine Keeps.ite (Keeps.lift _) ?_
  refine Keeps.bind (coap2oscorePacket_keeps platform packet) ?_
  intro oscorePacket
  exact Keeps.lift _

end UoscoreUedhoc.Oscore

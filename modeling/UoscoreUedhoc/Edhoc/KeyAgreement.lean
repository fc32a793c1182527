import UoscoreUedhoc.Edhoc.Delivery
import UoscoreUedhoc.Edhoc.Exchange

/-!
# Key agreement

Initiator and responder compute the key schedule by separate code and from
different secrets.  When the messages are delivered unchanged, each step of one
party finds the values that the other party had at the corresponding step.
-/

namespace UoscoreUedhoc.Edhoc

open UoscoreUedhoc Update

/-! ## Keys that match -/

/-- Both parties of a Diffie-Hellman exchange compute the same secret. -/
def DhCommutes (crypto : EdhocWrapper)
    (keyPair : EcdhAlg → Bytes → Bytes → Prop) : Prop :=
  ∀ {alg : EcdhAlg} {a gA b gB : Bytes},
    keyPair alg a gA → keyPair alg b gB →
      crypto.sharedSecretDerive alg a gB = crypto.sharedSecretDerive alg b gA

/-- What the receiver of a plaintext takes from one with `idCred` and `ead`. -/
def IsSplitAs (platform : EdhocPlatform) (ctxt : Ciphertext)
    (idCred ead : Bytes) (eadLen : Nat) (split : SplitPlaintext) : Prop :=
  ∃ signatureOrMac plaintext,
    plaintextEncode platform ctxt idCred signatureOrMac ead = .ok plaintext ∧
      plaintextSplit platform plaintext eadLen = .ok split

/-- A party that sends `idCred` in message 2 or 3 is known to the receiver of
the message as `received`. -/
def IsReceivedAs (platform : EdhocPlatform) (idCred received : Bytes) :
    Prop :=
  ∃ ctxt ead eadLen split,
    ctxt ≠ .ciphertext4 ∧ IsSplitAs platform ctxt idCred ead eadLen split ∧
      split.idCredX = some received

/-- The static DH key that is found for a party belongs to its secret. -/
def FindsKeyOf (platform : EdhocPlatform)
    (keyPair : EcdhAlg → Bytes → Bytes → Prop) (alg : EcdhAlg)
    (credArray : List OtherPartyCred) (idCred secret : Bytes) : Prop :=
  ∀ {received : Bytes} {retrieved : RetrievedCred},
    IsReceivedAs platform idCred received →
      retrieveCred platform true credArray received = .ok retrieved →
        keyPair alg secret retrieved.g

/-- Whether the initiator and the responder use static DH keys. -/
def methodType (method : Int32) : AuthenticationType :=
  authenticationTypeGet method ⟨none, none⟩

/-- The public keys that the parties have of each other belong to their
secrets. -/
structure MatchingKeys (platform : EdhocPlatform)
    (keyPair : EcdhAlg → Bytes → Bytes → Prop) (alg : EcdhAlg)
    (initiator : InitiatorContext) (buffersI : InitiatorBuffers)
    (responder : ResponderContext) (buffersR : ResponderBuffers) : Prop where
  ephemeralI : keyPair alg initiator.x initiator.gX
  ephemeralR : keyPair alg responder.y responder.gY
  staticI : (methodType initiator.method).staticDhI = some true →
    FindsKeyOf platform keyPair alg buffersR.credIArray initiator.idCredI
      initiator.i
  staticR : (methodType initiator.method).staticDhR = some true →
    FindsKeyOf platform keyPair alg buffersI.credRArray responder.idCredR
      responder.r

/-! ## The methods -/

/-- A method that leaves `static_dh_r` written is one of the four. -/
theorem isMethod_of_staticDhR {method : Int32} {staticDhI : Option Bool}
    {staticDhR : Bool}
    (written :
      (authenticationTypeGet method ⟨staticDhI, none⟩).staticDhR =
        some staticDhR) : IsMethod method := by
  unfold authenticationTypeGet at written
  unfold IsMethod
  split_ifs at written with first second third fourth
  · exact Or.inl first
  · exact Or.inr (Or.inl second)
  · exact Or.inr (Or.inr (Or.inl third))
  · exact Or.inr (Or.inr (Or.inr fourth))

section

variable {platform : EdhocPlatform}
  {keyPair : EcdhAlg → Bytes → Bytes → Prop}
  {initiator : InitiatorContext} {buffersI : InitiatorBuffers}
  {responder : ResponderContext} {buffersR : ResponderBuffers}
  {msg1 : Bytes}

/-! ## `message_1` -/

theorem selectedSuiteIsSupported_eq_ok {label : UInt8} {suitesR : Bytes}
    {supported : Bool}
    (searched : selectedSuiteIsSupported label suitesR = .ok supported) :
    supported = true ↔ label ∈ suitesR.take 256 := by
  unfold selectedSuiteIsSupported at searched
  split_ifs at searched with found long
  · cases searched
    simp [found]
  · cases searched
  · cases searched
    simp [found]

/-- What `msg2_gen` takes from a message that is parsed. -/
theorem msg1Process_parsed_eq_ok {selected : SelectedSuite} :
    msg1Process platform responder buffersR msg1 = .ok selected ↔
      ∃ parsed label suite staticDhI,
        msg1Parse platform msg1 buffersR.ead1Len = .ok parsed ∧
          parsed.suitesI.getLast? = some label ∧
            label ∈ responder.suitesR.take 256 ∧
              getSuite label = .ok suite ∧
                (authenticationTypeGet parsed.method
                    ⟨some false, none⟩).staticDhI = some staticDhI ∧
                  selected =
                    ⟨suite, staticDhI,
                      (authenticationTypeGet parsed.method
                        ⟨some false, none⟩).staticDhR,
                      parsed.gX, parsed.ead1⟩ := by
  unfold msg1Process
  simp only [outcome_bind_eq_ok, orUndefined_eq_ok]
  constructor
  · rintro ⟨parsed, isParsed, label, last, supported, searched, run⟩
    split at run
    · rename_i isSupported
      simp only [outcome_bind_eq_ok, orUndefined_eq_ok, Except.ok.injEq]
        at run
      obtain ⟨suite, isSuite, staticDhI, written, rfl⟩ := run
      exact ⟨parsed, label, suite, staticDhI, isParsed, last,
        (selectedSuiteIsSupported_eq_ok searched).mp isSupported, isSuite,
        written, rfl⟩
    · cases run
  · rintro ⟨parsed, label, suite, staticDhI, isParsed, last, found, isSuite,
      written, rfl⟩
    refine ⟨parsed, isParsed, label, last, true, ?_, ?_⟩
    · unfold selectedSuiteIsSupported
      rw [if_pos found]
    · rw [if_pos rfl]
      simp only [isSuite, outcome_ok_bind, written, orUndefined]

/-- What `msg2_gen` takes from the message of an initiator. -/
theorem msg1Process_eq_ok (inverts : platform.zcbor.Inverts platform.cbor)
    (stored : initiator.IsStored)
    (generated : msg1Gen platform initiator = .ok msg1)
    {selected : SelectedSuite} :
    msg1Process platform responder buffersR msg1 = .ok selected ↔
      initiator.suitesI.length ≤ 5 ∧ initiator.gX.length ≤ gXDefaultSize ∧
        initiator.ead1.length ≤ buffersR.ead1Len ∧
          ∃ label suite staticDhI,
            initiator.suitesI.getLast? = some label ∧
              label ∈ responder.suitesR.take 256 ∧
                getSuite label = .ok suite ∧
                  (authenticationTypeGet initiator.method
                      ⟨some false, none⟩).staticDhI = some staticDhI ∧
                    selected =
                      ⟨suite, staticDhI,
                        (authenticationTypeGet initiator.method
                          ⟨some false, none⟩).staticDhR,
                        initiator.gX, receivedEad1 initiator.ead1⟩ := by
  rw [msg1Process_parsed_eq_ok]
  constructor
  · rintro ⟨parsed, label, suite, staticDhI, isParsed, last, found, isSuite,
      written, isSelected⟩
    obtain ⟨few, gXShort, ead1Short, rfl⟩ :=
      (msg1Parse_eq_ok inverts stored generated).mp isParsed
    exact ⟨few, gXShort, ead1Short, label, suite, staticDhI, last, found,
      isSuite, written, isSelected⟩
  · rintro ⟨few, gXShort, ead1Short, label, suite, staticDhI, last, found,
      isSuite, written, isSelected⟩
    exact
      ⟨_, label, suite, staticDhI,
        (msg1Parse_eq_ok inverts stored generated).mpr
          ⟨few, gXShort, ead1Short, rfl⟩, last, found, isSuite, written,
        isSelected⟩

/-! ## Identifiers on their way -/

/-- The receiver splits the plaintext that the sender has encoded. -/
theorem isSplitAs_of_gen {ctxt : Ciphertext} {suite : Suite}
    (aeadInverts : platform.crypto.AeadInverts)
    {idCred signatureOrMac ead prk th ciphertext : Bytes}
    {eadLen : Nat} {split : SplitPlaintext}
    (sent : ciphertextGen platform ctxt suite idCred signatureOrMac ead prk
      th = .ok ciphertext)
    (opened : ciphertextDecryptSplit platform ctxt suite eadLen prk th
      ciphertext = .ok split) :
    IsSplitAs platform ctxt idCred ead eadLen split := by
  obtain ⟨plaintext, encoded, encrypted⟩ := outcome_bind_eq_ok.mp sent
  obtain ⟨decrypted, opening, splitting⟩ := outcome_bind_eq_ok.mp opened
  obtain ⟨_, rfl⟩ :=
    (ciphertextDecrypt_eq_ok aeadInverts encrypted).mp opening
  exact ⟨signatureOrMac, _, encoded, splitting⟩

/-- Both sides of the derivation from a static key of one party. -/
theorem prkDerive_agrees
    (dhCommutes : DhCommutes platform.crypto keyPair) {suite : Suite}
    {credArray : List OtherPartyCred}
    {idCred received prk ephemeral gEphemeral secret : Bytes}
    {staticDh : Bool} {retrieved : RetrievedCred}
    (ephemeralPair : keyPair suite.edhocEcdh ephemeral gEphemeral)
    (finds : staticDh = true →
      FindsKeyOf platform keyPair suite.edhocEcdh credArray idCred secret)
    (isReceived : IsReceivedAs platform idCred received)
    (found : retrieveCred platform staticDh credArray received =
      .ok retrieved) :
    prkDerive platform staticDh suite prk retrieved.g ephemeral =
      prkDerive platform staticDh suite prk gEphemeral secret := by
  apply prkDerive_congr
  rintro rfl
  exact dhCommutes ephemeralPair (finds rfl isReceived found)

/-! ## `message_2` -/

/-- What `msg2_gen` computes on its way. -/
theorem msg2Gen_eq_ok {rc : Msg2Output} :
    msg2Gen platform responder buffersR msg1 = .ok rc ↔
      ∃ selected th2 gXy prk2e staticDhR prk3e2m signOrMac2 ciphertext2 th3,
        msg1Process platform responder buffersR msg1 = .ok selected ∧
        th2Calculate platform selected.suite.edhocHash msg1 responder.gY
            responder.cR = .ok th2 ∧
        platform.crypto.sharedSecretDerive selected.suite.edhocEcdh
            responder.y selected.gX = some gXy ∧
        platform.crypto.hkdfExtract selected.suite.edhocHash [] gXy =
            some prk2e ∧
        selected.staticDhR = some staticDhR ∧
        prkDerive platform staticDhR selected.suite prk2e selected.gX
            responder.r = .ok prk3e2m ∧
        signatureOrMacGenerate platform staticDhR selected.suite
            responder.skR responder.pkR prk3e2m th2 responder.idCredR
            responder.credR responder.ead2 mac2Label = .ok signOrMac2 ∧
        ciphertextGen platform .ciphertext2 selected.suite
            responder.idCredR signOrMac2 responder.ead2 prk2e th2 =
          .ok ciphertext2 ∧
        msg2Encode platform responder.gY responder.cR ciphertext2 =
          .ok rc.msg2 ∧
        th3Calculate platform selected.suite.edhocHash th2 ciphertext2 =
          .ok th3 ∧
        rc =
          ⟨rc.msg2, selected.suite, selected.staticDhI, prk3e2m, th3,
            selected.ead1⟩ := by
  have signatureFits : ∀ alg : SignAlg,
      getSignatureLen alg ≤ signatureDefaultSize := by
    intro alg
    cases alg <;> decide
  unfold msg2Gen
  simp only [outcome_bind_eq_ok, tryExpect_eq_ok, orUndefined_eq_ok,
    checkBufferSize_eq_ok, signatureFits, exists_const, true_and,
    Except.ok.injEq]
  constructor
  · rintro ⟨selected, processed, th2, th2Calculated, gXy, derived, prk2e,
      extracted, staticDhR, isStaticDhR, prk3e2m, prkDerived, signOrMac2,
      generated, ciphertext2, encrypted, msg2, encoded, th3, th3Calculated,
      rfl⟩
    exact ⟨selected, th2, gXy, prk2e, staticDhR, prk3e2m, signOrMac2,
      ciphertext2, th3, processed, th2Calculated, derived, extracted,
      isStaticDhR, prkDerived, generated, encrypted, encoded, th3Calculated,
      rfl⟩
  · rintro ⟨selected, th2, gXy, prk2e, staticDhR, prk3e2m, signOrMac2,
      ciphertext2, th3, processed, th2Calculated, derived, extracted,
      isStaticDhR, prkDerived, generated, encrypted, encoded, th3Calculated,
      isRc⟩
    exact ⟨selected, processed, th2, th2Calculated, gXy, derived, prk2e,
      extracted, staticDhR, isStaticDhR, prk3e2m, prkDerived, signOrMac2,
      generated, ciphertext2, encrypted, rc.msg2, encoded, th3,
      th3Calculated, isRc.symm⟩

/-- The responder takes the suite that the initiator has selected. -/
theorem msg2Gen_suite (inverts : platform.zcbor.Inverts platform.cbor)
    (stored : initiator.IsStored)
    (generated : msg1Gen platform initiator = .ok msg1) {rc : Msg2Output}
    (sent : msg2Gen platform responder buffersR msg1 = .ok rc) :
    selectedSuite initiator.suitesI = .ok rc.suite := by
  obtain ⟨selected, _, _, _, _, _, _, _, _, processed, _, _, _, _, _, _, _,
    _, _, isRc⟩ := msg2Gen_eq_ok.mp sent
  obtain ⟨_, _, _, label, suite, _, last, _, isSuite, _, isSelected⟩ :=
    (msg1Process_eq_ok inverts stored generated).mp processed
  unfold selectedSuite
  rw [last, isRc, isSelected]
  exact isSuite

theorem msg2Encode_eq_ok {gY ciphertext2 msg2 : Bytes} {cR : Cx}
    (gYShort : gY.length ≤ gYDefaultSize)
    (short : ciphertext2.length ≤ ciphertext2DefaultSize) :
    msg2Encode platform gY cR ciphertext2 = .ok msg2 ↔
      (encodeM2 platform.cbor (gY ++ ciphertext2) cR).length ≤
          msg2DefaultSize ∧
        msg2 = encodeM2 platform.cbor (gY ++ ciphertext2) cR := by
  have copyFits : (gY ++ ciphertext2).length ≤
      gYDefaultSize + ciphertext2DefaultSize := by
    rw [List.length_append]
    omega
  have noWrap : (gY.length + ciphertext2.length) % 2 ^ 32 =
      gY.length + ciphertext2.length := by
    unfold gYDefaultSize p256PubKeyCompressedSize at gYShort
    unfold ciphertext2DefaultSize plaintextDefaultSize at short
    omega
  unfold msg2Encode
  dsimp only
  rw [noWrap, checkBufferSize_of_le (by omega), outcome_ok_bind,
    memcpy_eq_ok.mpr ⟨copyFits, rfl⟩, outcome_ok_bind, cborEncode_eq_ok]

/-- What `msg3_gen` computes until it checks the responder. -/
theorem msg2Open_eq_ok {msg2 : Bytes} {opened : OpenedMsg2} :
    msg2Open platform initiator buffersI msg1 msg2 = .ok opened ↔
      ∃ parsed gXy prk2e split,
        selectedSuite initiator.suitesI = .ok opened.suite ∧
        (authenticationTypeGet initiator.method
          ⟨some false, some false⟩).staticDhI = some opened.staticDhI ∧
        (authenticationTypeGet initiator.method
          ⟨some false, some false⟩).staticDhR = some opened.staticDhR ∧
        (exec
          (msg2Parse platform msg2 (behindMsg2 msg2)
            (getEcdhPkLen opened.suite.edhocEcdh) cRDefaultSize
            ciphertext2DefaultSize) []).1 = .ok parsed ∧
        platform.crypto.sharedSecretDerive opened.suite.edhocEcdh initiator.x
            parsed.gY = some gXy ∧
        th2Calculate platform opened.suite.edhocHash msg1 parsed.gY
            parsed.cR = .ok opened.th2 ∧
        platform.crypto.hkdfExtract opened.suite.edhocHash [] gXy =
            some prk2e ∧
        ciphertextDecryptSplit platform .ciphertext2 opened.suite
            buffersI.ead2Len prk2e opened.th2 parsed.ciphertext2 =
          .ok split ∧
        split.idCredX = some opened.idCredR ∧
        retrieveCred platform opened.staticDhR buffersI.credRArray
            opened.idCredR = .ok opened.retrieved ∧
        prkDerive platform opened.staticDhR opened.suite prk2e
            opened.retrieved.g initiator.x = .ok opened.prk3e2m ∧
        opened.gY = parsed.gY ∧ opened.ciphertext2 = parsed.ciphertext2 ∧
          opened.ead2 = split.ad ∧ opened.signOrMac = split.signOrMac := by
  unfold msg2Open
  simp only [outcome_bind_eq_ok, tryExpect_eq_ok, orUndefined_eq_ok,
    Except.ok.injEq]
  constructor
  · rintro ⟨suite, isSuite, staticDhI, isStaticDhI, staticDhR, isStaticDhR,
      parsed, parsing, gXy, derived, th2, th2Calculated, prk2e, extracted,
      split, decrypted, idCredR, isIdCredR, retrieved, found, prk3e2m,
      prkDerived, rfl⟩
    exact ⟨parsed, gXy, prk2e, split, isSuite, isStaticDhI, isStaticDhR,
      parsing, derived, th2Calculated, extracted, decrypted, isIdCredR, found,
      prkDerived, rfl, rfl, rfl, rfl⟩
  · rintro ⟨parsed, gXy, prk2e, split, isSuite, isStaticDhI, isStaticDhR,
      parsing, derived, th2Calculated, extracted, decrypted, isIdCredR, found,
      prkDerived, isGY, isCiphertext2, isEad2, isSignOrMac⟩
    refine ⟨opened.suite, isSuite, opened.staticDhI, isStaticDhI,
      opened.staticDhR, isStaticDhR, parsed, parsing, gXy, derived,
      opened.th2, th2Calculated, prk2e, extracted, split, decrypted,
      opened.idCredR, isIdCredR, opened.retrieved, found, opened.prk3e2m,
      prkDerived, ?_⟩
    rw [← isGY, ← isCiphertext2, ← isEad2, ← isSignOrMac]

/-- After `message_2` the initiator has what the responder had when it wrote
it. -/
theorem msg2_agrees (inverts : platform.zcbor.Inverts platform.cbor)
    (aeadInverts : platform.crypto.AeadInverts)
    (dhCommutes : DhCommutes platform.crypto keyPair)
    (storedI : initiator.IsStored) (storedR : responder.cR.IsStored)
    {rc : Msg2Output} {opened : OpenedMsg2}
    (generated : msg1Gen platform initiator = .ok msg1)
    (sent : msg2Gen platform responder buffersR msg1 = .ok rc)
    (received : msg2Open platform initiator buffersI msg1 rc.msg2 =
      .ok opened)
    (gYLength : responder.gY.length = getEcdhPkLen rc.suite.edhocEcdh)
    (keys : MatchingKeys platform keyPair rc.suite.edhocEcdh initiator
      buffersI responder buffersR) :
    opened.suite = rc.suite ∧ opened.staticDhI = rc.staticDhI ∧
      (methodType initiator.method).staticDhI = some rc.staticDhI ∧
        opened.gY = responder.gY ∧ opened.prk3e2m = rc.prk3e2m ∧
          th3Calculate platform rc.suite.edhocHash opened.th2
              opened.ciphertext2 = .ok rc.th3 ∧
            ∃ split, opened.ead2 = split.ad ∧
              IsSplitAs platform .ciphertext2 responder.idCredR
                responder.ead2 buffersI.ead2Len split := by
  obtain ⟨selected, th2, gXy, prk2e, staticDhR, prk3e2m, signOrMac2,
    ciphertext2, th3, processed, th2R, derivedR, extractedR, isStaticDhR,
    prkR, _, encrypted, encoded, th3R, isRc⟩ := msg2Gen_eq_ok.mp sent
  obtain ⟨_, _, _, _, suite, staticDhI, _, _, _, isStaticDhI, rfl⟩ :=
    (msg1Process_eq_ok inverts storedI generated).mp processed
  obtain ⟨parsed, gXy', prk2e', split, isSuite', isStaticDhI', isStaticDhR',
    parsing, derivedI, th2I, extractedI, decrypted, isIdCredR, found, prkI,
    isGY, isCiphertext2, isEad2, _⟩ := msg2Open_eq_ok.mp received
  rw [isRc] at gYLength keys ⊢
  dsimp only at gYLength keys th2R derivedR extractedR isStaticDhR ⊢
  dsimp only at prkR encrypted th3R
  -- both have selected the same suite and the same kind of keys
  have sameSuite : opened.suite = suite := by
    have isSuite := msg2Gen_suite inverts storedI generated sent
    rw [isRc] at isSuite
    exact Except.ok.inj (isSuite'.symm.trans isSuite)
  have known := isMethod_of_staticDhR isStaticDhR
  have sameType := authenticationTypeGet_of_isMethod known
  rw [sameType _ ⟨none, none⟩] at isStaticDhI isStaticDhR
  rw [sameType _ ⟨none, none⟩] at isStaticDhI' isStaticDhR'
  rw [isStaticDhI, Option.some.injEq] at isStaticDhI'
  rw [isStaticDhR, Option.some.injEq] at isStaticDhR'
  rw [sameSuite] at parsing derivedI th2I extractedI decrypted prkI
  rw [← isStaticDhR'] at found prkI
  -- the parts of `message_2`
  have short : ciphertext2.length ≤ ciphertext2DefaultSize := by
    obtain ⟨_, _, sealed⟩ := outcome_bind_eq_ok.mp encrypted
    exact ciphertextEncrypt_length sealed
  have gYShort : responder.gY.length ≤ gYDefaultSize := by
    rw [gYLength]
    exact getEcdhPkLen_le _
  obtain ⟨msg2Fits, isMsg2⟩ := (msg2Encode_eq_ok gYShort short).mp encoded
  have buffer : (encodeM2 platform.cbor (responder.gY ++ ciphertext2)
      responder.cR).length + (behindMsg2 rc.msg2).length =
        msg2DefaultSize := by
    rw [behindMsg2, List.length_replicate, isMsg2]
    omega
  have room : responder.gY.length + ciphertext2DefaultSize < 2 ^ 32 := by
    unfold gYDefaultSize p256PubKeyCompressedSize at gYShort
    unfold ciphertext2DefaultSize plaintextDefaultSize
    omega
  rw [isMsg2, ← gYLength] at parsing
  rw [isMsg2] at buffer
  obtain ⟨_, rfl⟩ :=
    (msg2Parse_encodeM2 inverts buffer gYShort short room storedR).mp parsing
  dsimp only at derivedI th2I decrypted isGY isCiphertext2
  -- the transcript hash and the first key
  have sameTh2 : opened.th2 = th2 :=
    Except.ok.inj (th2I.symm.trans th2R)
  rw [dhCommutes keys.ephemeralI keys.ephemeralR, derivedR,
    Option.some.injEq] at derivedI
  subst derivedI
  rw [extractedR, Option.some.injEq] at extractedI
  subst extractedI
  -- the static key of the responder
  rw [sameTh2] at decrypted
  have isSplit := isSplitAs_of_gen aeadInverts encrypted decrypted
  have isReceived : IsReceivedAs platform responder.idCredR opened.idCredR :=
    ⟨_, _, _, _, by decide, isSplit, isIdCredR⟩
  have finds : staticDhR = true →
      FindsKeyOf platform keyPair suite.edhocEcdh buffersI.credRArray
        responder.idCredR responder.r := by
    rintro rfl
    exact keys.staticR isStaticDhR
  rw [prkDerive_agrees dhCommutes keys.ephemeralI finds isReceived found,
    prkR, Except.ok.injEq] at prkI
  rw [sameTh2, isCiphertext2]
  exact ⟨sameSuite, isStaticDhI'.symm, isStaticDhI, isGY, prkI.symm, th3R,
    split, isEad2, isSplit⟩

/-! ## `message_3` -/

variable {stack stackI stackR : Stack}

/-- What `msg3_gen` computes once it has opened `message_2`. -/
theorem msg3Gen_eq_ok {msg2 : Bytes} {output : Msg3Output} :
    msg3Gen platform stack initiator buffersI msg1 msg2 = .ok output ↔
      ∃ opened th3 signOrMac3 ciphertext3,
        msg2Open platform initiator buffersI msg1 msg2 = .ok opened ∧
        signatureOrMacVerify platform stack opened.staticDhR opened.suite
            opened.retrieved.pk opened.prk3e2m opened.th2 opened.idCredR
            opened.retrieved.cred opened.ead2 mac2Label opened.signOrMac =
          .ok () ∧
        th3Calculate platform opened.suite.edhocHash opened.th2
            opened.ciphertext2 = .ok th3 ∧
        prkDerive platform opened.staticDhI opened.suite opened.prk3e2m
            opened.gY initiator.i = .ok output.prk4x3m ∧
        signatureOrMacGenerate platform opened.staticDhI opened.suite
            initiator.skI initiator.pkI output.prk4x3m th3 initiator.idCredI
            initiator.credI initiator.ead3 mac3Label = .ok signOrMac3 ∧
        ciphertextGen platform .ciphertext3 opened.suite initiator.idCredI
            signOrMac3 initiator.ead3 opened.prk3e2m th3 = .ok ciphertext3 ∧
        ciphertext3.length + encodingOverhead ≤ ciphertext3DefaultSize ∧
        encodeByteString platform ciphertext3 msg2DefaultSize =
          .ok output.msg3 ∧
        th4Calculate platform opened.suite.edhocHash th3 ciphertext3 =
          .ok output.th4 ∧
        output.suite = opened.suite ∧ output.ead2 = opened.ead2 := by
  unfold msg3Gen
  simp only [outcome_bind_eq_ok, checkBufferSize_eq_ok, Except.ok.injEq]
  constructor
  · rintro ⟨opened, opening, _, verified, th3, th3Calculated, prk4x3m,
      prkDerived, signOrMac3, generated, ciphertext3, encrypted, _, fits,
      msg3, encoded, th4, th4Calculated, rfl⟩
    exact ⟨opened, th3, signOrMac3, ciphertext3, opening, verified,
      th3Calculated, prkDerived, generated, encrypted, fits, encoded,
      th4Calculated, rfl, rfl⟩
  · rintro ⟨opened, th3, signOrMac3, ciphertext3, opening, verified,
      th3Calculated, prkDerived, generated, encrypted, fits, encoded,
      th4Calculated, isSuite, isEad2⟩
    refine ⟨opened, opening, (), verified, th3, th3Calculated,
      output.prk4x3m, prkDerived, signOrMac3, generated, ciphertext3,
      encrypted, (), fits, output.msg3, encoded, output.th4, th4Calculated,
      ?_⟩
    rw [← isSuite, ← isEad2]

/-- What `msg3_process` computes until it checks the initiator. -/
theorem msg3Open_eq_ok {rc : Msg2Output} {msg3 : Bytes}
    {opened : OpenedMsg3} :
    msg3Open platform responder buffersR rc msg3 = .ok opened ↔
      ∃ split,
        decodeByteString platform msg3 ciphertext3DefaultSize =
          .ok opened.ciphertext3 ∧
        ciphertextDecryptSplit platform .ciphertext3 rc.suite
            buffersR.ead3Len rc.prk3e2m rc.th3 opened.ciphertext3 =
          .ok split ∧
        split.idCredX = some opened.idCredI ∧
        retrieveCred platform rc.staticDhI buffersR.credIArray
            opened.idCredI = .ok opened.retrieved ∧
        prkDerive platform rc.staticDhI rc.suite rc.prk3e2m
            opened.retrieved.g responder.y = .ok opened.prk4x3m ∧
        opened.ead3 = split.ad ∧ opened.signOrMac = split.signOrMac := by
  unfold msg3Open
  simp only [outcome_bind_eq_ok, orUndefined_eq_ok, Except.ok.injEq]
  constructor
  · rintro ⟨ciphertext3, decoded, split, decrypted, idCredI, isIdCredI,
      retrieved, found, prk4x3m, prkDerived, rfl⟩
    exact ⟨split, decoded, decrypted, isIdCredI, found, prkDerived, rfl,
      rfl⟩
  · rintro ⟨split, decoded, decrypted, isIdCredI, found, prkDerived, isEad3,
      isSignOrMac⟩
    refine ⟨opened.ciphertext3, decoded, split, decrypted, opened.idCredI,
      isIdCredI, opened.retrieved, found, opened.prk4x3m, prkDerived, ?_⟩
    rw [← isEad3, ← isSignOrMac]

theorem msg3Process_eq_ok {rc : Msg2Output} {msg3 : Bytes}
    {processed : ProcessedMsg3} :
    msg3Process platform stack responder buffersR rc msg3 = .ok processed ↔
      ∃ opened,
        msg3Open platform responder buffersR rc msg3 = .ok opened ∧
        signatureOrMacVerify platform stack rc.staticDhI rc.suite
            opened.retrieved.pk opened.prk4x3m rc.th3 opened.idCredI
            opened.retrieved.cred opened.ead3 mac3Label opened.signOrMac =
          .ok () ∧
        th4Calculate platform rc.suite.edhocHash rc.th3 opened.ciphertext3 =
          .ok processed.th4 ∧
        processed.ead3 = opened.ead3 ∧
          processed.prk4x3m = opened.prk4x3m := by
  unfold msg3Process
  simp only [outcome_bind_eq_ok, Except.ok.injEq]
  constructor
  · rintro ⟨opened, opening, _, verified, th4, th4Calculated, rfl⟩
    exact ⟨opened, opening, verified, th4Calculated, rfl, rfl⟩
  · rintro ⟨opened, opening, verified, th4Calculated, isEad3, isPrk4x3m⟩
    refine ⟨opened, opening, (), verified, processed.th4, th4Calculated, ?_⟩
    rw [← isEad3, ← isPrk4x3m]

/-- The string that `message_3` carries is the one the initiator encrypted. -/
theorem ciphertext3_received (inverts : platform.zcbor.Inverts platform.cbor)
    {ciphertext3 msg3 received : Bytes}
    (short : ciphertext3.length + encodingOverhead ≤ ciphertext3DefaultSize)
    (encoded : encodeByteString platform ciphertext3 msg2DefaultSize =
      .ok msg3) :
    decodeByteString platform msg3 ciphertext3DefaultSize = .ok received ↔
      received = ciphertext3 := by
  obtain ⟨_, rfl⟩ := cborEncode_eq_ok.mp encoded
  have wordLength : ciphertext3.length < 2 ^ 32 := by
    unfold ciphertext3DefaultSize plaintextDefaultSize at short
    omega
  rw [decodeByteString_eq_ok inverts wordLength]
  constructor
  · exact And.right
  · intro same
    exact ⟨by omega, same⟩

/-- After `message_3` the responder has what the initiator had when it wrote
it. -/
theorem msg3_agrees (inverts : platform.zcbor.Inverts platform.cbor)
    (aeadInverts : platform.crypto.AeadInverts)
    (dhCommutes : DhCommutes platform.crypto keyPair)
    (storedI : initiator.IsStored) (storedR : responder.cR.IsStored)
    {rc : Msg2Output} {output : Msg3Output} {processed : ProcessedMsg3}
    (generated : msg1Gen platform initiator = .ok msg1)
    (sent2 : msg2Gen platform responder buffersR msg1 = .ok rc)
    (sent3 : msg3Gen platform stackI initiator buffersI msg1 rc.msg2 =
      .ok output)
    (received : msg3Process platform stackR responder buffersR rc
      output.msg3 = .ok processed)
    (gYLength : responder.gY.length = getEcdhPkLen rc.suite.edhocEcdh)
    (keys : MatchingKeys platform keyPair rc.suite.edhocEcdh initiator
      buffersI responder buffersR) :
    output.prk4x3m = processed.prk4x3m ∧ output.th4 = processed.th4 ∧
      (∃ split, output.ead2 = split.ad ∧
        IsSplitAs platform .ciphertext2 responder.idCredR responder.ead2
          buffersI.ead2Len split) ∧
      ∃ split, processed.ead3 = split.ad ∧
        IsSplitAs platform .ciphertext3 initiator.idCredI initiator.ead3
          buffersR.ead3Len split := by
  obtain ⟨opened, th3, signOrMac3, ciphertext3, opening, _, th3I, prkI, _,
    encrypted, fits, encoded, th4I, _, sameEad2⟩ := msg3Gen_eq_ok.mp sent3
  obtain ⟨sameSuite, sameStaticDhI, isStaticDhI, sameGY, samePrk3e2m,
    th3R, split2, isEad2, isSplit2⟩ := msg2_agrees inverts aeadInverts dhCommutes storedI storedR
      generated sent2 opening gYLength keys
  obtain ⟨opened3, opening3, _, th4R, sameEad3, isPrk4x3m⟩ :=
    msg3Process_eq_ok.mp received
  obtain ⟨split, decoded, decrypted, isIdCredI, found, prkR, isEad3, _⟩ :=
    msg3Open_eq_ok.mp opening3
  rw [sameSuite, th3R, Except.ok.injEq] at th3I
  subst th3I
  have sameCiphertext3 :=
    (ciphertext3_received inverts fits encoded).mp decoded
  rw [sameCiphertext3] at decrypted th4R
  rw [sameSuite] at prkI encrypted th4I
  rw [samePrk3e2m] at encrypted prkI
  -- the static key of the initiator
  have isSplit := isSplitAs_of_gen aeadInverts encrypted decrypted
  have isReceived : IsReceivedAs platform initiator.idCredI
      opened3.idCredI :=
    ⟨_, _, _, _, by decide, isSplit, isIdCredI⟩
  have finds : rc.staticDhI = true →
      FindsKeyOf platform keyPair rc.suite.edhocEcdh buffersR.credIArray
        initiator.idCredI initiator.i := by
    intro staticDh
    rw [staticDh] at isStaticDhI
    exact keys.staticI isStaticDhI
  rw [prkDerive_agrees dhCommutes keys.ephemeralR finds isReceived found]
    at prkR
  rw [sameStaticDhI, sameGY, prkR, Except.ok.injEq] at prkI
  refine ⟨by rw [isPrk4x3m, prkI], Except.ok.inj (th4I.symm.trans th4R),
    ⟨split2, sameEad2.trans isEad2, isSplit2⟩,
    split, sameEad3.trans isEad3, isSplit⟩

/-- When the messages are delivered unchanged, both runs end with the same
keys. -/
theorem delivered_sameKeys (inverts : platform.zcbor.Inverts platform.cbor)
    (aeadInverts : platform.crypto.AeadInverts)
    (dhCommutes : DhCommutes platform.crypto keyPair)
    (storedI : initiator.IsStored) (storedR : responder.cR.IsStored)
    {suite : Suite} (isSuite : selectedSuite initiator.suitesI = .ok suite)
    (gYLength : responder.gY.length = getEcdhPkLen suite.edhocEcdh)
    (keys : MatchingKeys platform keyPair suite.edhocEcdh initiator buffersI
      responder buffersR)
    {outI : InitiatorOutput} {outR : ResponderOutput}
    (delivered : Delivered platform stackI stackR initiator buffersI
      responder buffersR outI outR) :
    outI.prk4x3m = outR.prk4x3m ∧ outI.th4 = outR.th4 := by
  obtain ⟨msg1, rc, output, processed, last, generated, _, sent2, _, sent3,
    _, received, _, ends, rfl⟩ := delivered_iff.mp delivered
  obtain ⟨_, isPrk, isTh4⟩ := ends.keys
  have sameSuite : rc.suite = suite :=
    Except.ok.inj
      ((msg2Gen_suite inverts storedI generated sent2).symm.trans isSuite)
  rw [← sameSuite] at gYLength keys
  obtain ⟨samePrk, sameTh4, _⟩ :=
    msg3_agrees inverts aeadInverts dhCommutes storedI storedR generated sent2
      sent3 received gYLength keys
  exact ⟨isPrk.trans samePrk, isTh4.trans sameTh4⟩

/-! ## The exchange -/

/-- When the messages are delivered unchanged and both runs return `ok`, both
parties have the same `PRK_4x3m` and `TH_4`, and so the same exported keys. -/
theorem edhoc_keysAgree
    (platform : EdhocPlatform) (keyPair : EcdhAlg → Bytes → Bytes → Prop)
    (inverts : platform.zcbor.Inverts platform.cbor)
    (aeadInverts : platform.crypto.AeadInverts)
    (dhCommutes : DhCommutes platform.crypto keyPair)
    (stackI stackR : Stack)
    (initiator : InitiatorContext) (buffersI : InitiatorBuffers)
    (responder : ResponderContext) (buffersR : ResponderBuffers)
    (storedI : initiator.IsStored) (storedR : responder.cR.IsStored)
    (suite : Suite) (isSuite : selectedSuite initiator.suitesI = .ok suite)
    (gYLength : responder.gY.length = getEcdhPkLen suite.edhocEcdh)
    (keys : MatchingKeys platform keyPair suite.edhocEcdh initiator buffersI
      responder buffersR)
    (outI : InitiatorOutput) (outR : ResponderOutput)
    (delivered : Delivered platform stackI stackR initiator buffersI
      responder buffersR outI outR) :
    outI.prk4x3m = outR.prk4x3m ∧ outI.th4 = outR.th4 ∧
      ∀ (appHashAlg : HashAlg) (label : Bytes) (outLen : Nat),
        edhocExporter platform appHashAlg outI.prk4x3m outI.th4 label
            outLen =
          edhocExporter platform appHashAlg outR.prk4x3m outR.th4 label
            outLen := by
  obtain ⟨msg1, rc, output, processed, last, generated, _, sent2, _, sent3,
    _, received, _, ends, rfl⟩ := delivered_iff.mp delivered
  obtain ⟨_, isPrk, isTh4⟩ := ends.keys
  have sameSuite : rc.suite = suite := by
    have isSuite' := msg2Gen_suite inverts storedI generated sent2
    exact Except.ok.inj (isSuite'.symm.trans isSuite)
  rw [← sameSuite] at gYLength keys
  obtain ⟨samePrk, sameTh4, _⟩ := msg3_agrees inverts aeadInverts dhCommutes
    storedI storedR generated sent2 sent3 received gYLength keys
  rw [isPrk, isTh4, samePrk, sameTh4]
  exact ⟨rfl, rfl, fun _ _ _ => rfl⟩

end

/-! ## The vector -/

/-- Without readable certificates a credential comes from the device. -/
theorem retrieveCred_local {platform : EdhocPlatform}
    (noX509 : ∀ cert credArray pkLen,
      platform.crypto.certX509Verify cert credArray pkLen = none)
    (noC509 : ∀ cert credArray pkLen,
      platform.crypto.certC509Verify cert credArray pkLen = none)
    {credArray : List OtherPartyCred} {idCred : Bytes}
    {retrieved : RetrievedCred}
    (found : retrieveCred platform true credArray idCred = .ok retrieved) :
    ∃ other ∈ credArray, staticDhKey other.g = .ok retrieved.g := by
  have noCert : ∀ label cert,
      verifyCert2Cred platform true credArray label cert ≠ .ok retrieved := by
    intro label cert verified
    unfold verifyCert2Cred certVerify at verified
    obtain ⟨_, _, run⟩ := outcome_bind_eq_ok.mp verified
    obtain ⟨_, certified, _⟩ := outcome_bind_eq_ok.mp run
    rw [tryExpect_eq_ok] at certified
    cases label with
    | x5bag | x5chain =>
        dsimp only at certified
        rw [noX509] at certified
        cases certified
    | c5b | c5c =>
        dsimp only at certified
        rw [noC509] at certified
        cases certified
  unfold retrieveCred at found
  obtain ⟨map, _, run⟩ := outcome_bind_eq_ok.mp found
  split at run
  · unfold getLocalCred at run
    split at run
    · rename_i other isOther
      simp only [outcome_bind_eq_ok, if_true, Except.ok.injEq] at run
      obtain ⟨_, _, g, isKey, rfl⟩ := run
      exact ⟨other, List.mem_of_find?_eq_some isOther, isKey⟩
    · cases run
  · split at run
    · exact absurd run (noCert _ _)
    · exact absurd run (noCert _ _)
    · exact absurd run (noCert _ _)
    · exact absurd run (noCert _ _)
    · cases run

/-- The key pairs of the vector. -/
def v1KeyPairs : List (Bytes × Bytes) :=
  [(v1X, v1GX), (v1Y, v1GY), (v1R, v1GR), (v1I, v1GI)]

def V1KeyPair (_ : EcdhAlg) (secret key : Bytes) : Prop :=
  (secret, key) ∈ v1KeyPairs

instance (alg : EcdhAlg) (secret key : Bytes) :
    Decidable (V1KeyPair alg secret key) :=
  inferInstanceAs (Decidable (_ ∈ _))

theorem v1_dhCommutes : DhCommutes v1Platform.crypto V1KeyPair := by
  have pairs : ∀ left ∈ v1KeyPairs, ∀ right ∈ v1KeyPairs,
      v1Records.sharedSecret.lookup (left.1, right.2) =
        v1Records.sharedSecret.lookup (right.1, left.2) := by
    decide +kernel
  intro alg a gA b gB leftPair rightPair
  exact pairs (a, gA) leftPair (b, gB) rightPair

theorem v1_aeadInverts : v1Platform.crypto.AeadInverts := by
  have decrypts : ∀ record ∈ v1Records.aead,
      v1Platform.crypto.aeadDecrypt record.ciphertext record.key record.nonce
          record.aad record.tagLen = some record.plaintext := by
    decide +kernel
  exact @CryptoWrapper.ofRecords_aeadInverts [] v1Records.aead
    v1Records_lengths.aead decrypts

theorem v1_matchingKeys :
    MatchingKeys v1Platform V1KeyPair .x25519 v1Initiator v1InitiatorBuffers
      v1Responder v1ResponderBuffers where
  ephemeralI := by decide +kernel
  ephemeralR := by decide +kernel
  staticI := by
    intro _ received retrieved _ found
    obtain ⟨other, isOther, isKey⟩ :=
      retrieveCred_local (fun _ _ _ => rfl) (fun _ _ _ => rfl) found
    simp only [v1ResponderBuffers, List.mem_singleton] at isOther
    subst isOther
    have key : staticDhKey v1GI = .ok v1GI := by
      decide +kernel
    rw [← Except.ok.inj (key.symm.trans isKey)]
    decide +kernel
  staticR := by
    intro _ received retrieved _ found
    obtain ⟨other, isOther, isKey⟩ :=
      retrieveCred_local (fun _ _ _ => rfl) (fun _ _ _ => rfl) found
    simp only [v1InitiatorBuffers, List.mem_singleton] at isOther
    subst isOther
    have key : staticDhKey v1GR = .ok v1GR := by
      decide +kernel
    rw [← Except.ok.inj (key.symm.trans isKey)]
    decide +kernel

def v1InitiatorOutput : InitiatorOutput where
  ead2 := []
  ead4 := some []
  prk4x3m := v1Prk4x3m
  th4 := v1Th4

def v1ResponderOutput : ResponderOutput where
  ead1 := none
  ead3 := []
  prk4x3m := v1Prk4x3m
  th4 := v1Th4

theorem v1_delivered :
    Delivered v1Platform v1Stack v1Stack v1Initiator v1InitiatorBuffers
      v1Responder v1ResponderBuffers v1InitiatorOutput v1ResponderOutput := by
  refine ⟨[v1Message2, v1Message4], [v1Message1, v1Message3], ⟨[], ?_⟩,
    ⟨[], ?_⟩⟩
  · decide +kernel
  · decide +kernel

/-- Both parties of the vector export the same key. -/
theorem edhoc_keysAgree_v1 :
    v1InitiatorOutput.prk4x3m = v1ResponderOutput.prk4x3m ∧
      v1InitiatorOutput.th4 = v1ResponderOutput.th4 ∧
        ∀ (appHashAlg : HashAlg) (label : Bytes) (outLen : Nat),
          edhocExporter v1Platform appHashAlg v1InitiatorOutput.prk4x3m
              v1InitiatorOutput.th4 label outLen =
            edhocExporter v1Platform appHashAlg v1ResponderOutput.prk4x3m
              v1ResponderOutput.th4 label outLen :=
  edhoc_keysAgree v1Platform V1KeyPair canonicalZcbor_inverts v1_aeadInverts
    v1_dhCommutes v1Stack v1Stack v1Initiator v1InitiatorBuffers v1Responder
    v1ResponderBuffers ⟨by decide, trivial, by decide⟩
    (by decide)
    v1Opened2.suite rfl (by decide) v1_matchingKeys v1InitiatorOutput
    v1ResponderOutput v1_delivered

end UoscoreUedhoc.Edhoc

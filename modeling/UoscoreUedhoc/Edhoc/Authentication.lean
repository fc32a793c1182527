import UoscoreUedhoc.Edhoc.Attestations
import UoscoreUedhoc.Edhoc.KeyAgreement
import UoscoreUedhoc.Lib.Runs

/-!
# Authentication by signatures

Any number of sessions in both roles between which any messages are delivered.
A party that accepts a signature under a key that only its owner uses agrees
with an earlier step of the owner on the suite, the messages so far, the
credentials and the key of the session.
-/

namespace UoscoreUedhoc.Edhoc

open UoscoreUedhoc Update
open UoscoreUedhoc.Runs

/-! ## Steps of sessions -/

/-- The steps in which a party makes or checks a signature, with what it
receives and what it computes. -/
inductive SessionStep where
  | sendsMessage2 (responder : ResponderContext) (buffers : ResponderBuffers)
      (msg1 : Bytes) (rc : Msg2Output)
  | sendsMessage3 (stack : Stack) (initiator : InitiatorContext)
      (buffers : InitiatorBuffers) (msg1 msg2 : Bytes) (output : Msg3Output)
  | takesMessage3 (stack : Stack) (responder : ResponderContext)
      (buffers : ResponderBuffers) (msg1 : Bytes) (rc : Msg2Output)
      (msg3 : Bytes) (output : ProcessedMsg3)

section

variable (platform : EdhocPlatform)

/-- The step is what the code does. -/
def SessionStep.Happens : SessionStep → Prop
  | .sendsMessage2 responder buffers msg1 rc =>
      msg2Gen platform responder buffers msg1 = .ok rc
  | .sendsMessage3 stack initiator buffers msg1 msg2 output =>
      msg1Gen platform initiator = .ok msg1 ∧
        msg3Gen platform stack initiator buffers msg1 msg2 = .ok output
  | .takesMessage3 stack responder buffers msg1 rc msg3 output =>
      msg2Gen platform responder buffers msg1 = .ok rc ∧
        msg3Process platform stack responder buffers rc msg3 = .ok output

/-- `CIPHERTEXT_2` in the message that `msg2_gen` has written. -/
def HasCiphertext2 (responder : ResponderContext) (msg1 : Bytes)
    (rc : Msg2Output) (ciphertext2 : Bytes) : Prop :=
  msg2Encode platform responder.gY responder.cR ciphertext2 = .ok rc.msg2 ∧
    ∃ th2,
      th2Calculate platform rc.suite.edhocHash msg1 responder.gY
          responder.cR = .ok th2 ∧
        th3Calculate platform rc.suite.edhocHash th2 ciphertext2 = .ok rc.th3

/-- What the initiator finds in `message_2`. -/
def Parses (suite : Suite) (msg2 : Bytes) (parsed : ParsedMsg2) : Prop :=
  (exec
    (msg2Parse platform msg2 (behindMsg2 msg2)
      (getEcdhPkLen suite.edhocEcdh) cRDefaultSize ciphertext2DefaultSize)
    []).1 = .ok parsed

/-- The signatures that a step makes. -/
def SessionStep.Signs (step : SessionStep) (attestation : Attestation) :
    Prop :=
  match step with
  | .sendsMessage2 responder buffers msg1 rc =>
      ∃ selected ciphertext2,
        msg1Process platform responder buffers msg1 = .ok selected ∧
          selected.staticDhR = some false ∧
          HasCiphertext2 platform responder msg1 rc ciphertext2 ∧
          attestation =
            { signed := .message2
              suite := rc.suite
              pk := responder.pkR
              prk := rc.prk3e2m
              message1 := msg1
              gY := responder.gY
              cR := responder.cR
              ciphertext2 := ciphertext2
              idCred := responder.idCredR
              cred := responder.credR
              ead := responder.ead2 }
  | .sendsMessage3 _ initiator buffers msg1 msg2 output =>
      ∃ opened parsed,
        msg2Open platform initiator buffers msg1 msg2 = .ok opened ∧
          opened.staticDhI = false ∧
          Parses platform opened.suite msg2 parsed ∧
          attestation =
            { signed := .message3
              suite := opened.suite
              pk := initiator.pkI
              prk := output.prk4x3m
              message1 := msg1
              gY := parsed.gY
              cR := parsed.cR
              ciphertext2 := parsed.ciphertext2
              idCred := initiator.idCredI
              cred := initiator.credI
              ead := initiator.ead3 }
  | .takesMessage3 .. => False

/-- The signatures that a step has accepted. -/
def SessionStep.Accepts (step : SessionStep) (attestation : Attestation) :
    Prop :=
  match step with
  | .sendsMessage2 .. => False
  | .sendsMessage3 _ initiator buffers msg1 msg2 _ =>
      ∃ opened parsed,
        msg2Open platform initiator buffers msg1 msg2 = .ok opened ∧
          opened.staticDhR = false ∧
          Parses platform opened.suite msg2 parsed ∧
          attestation =
            { signed := .message2
              suite := opened.suite
              pk := opened.retrieved.pk
              prk := opened.prk3e2m
              message1 := msg1
              gY := parsed.gY
              cR := parsed.cR
              ciphertext2 := parsed.ciphertext2
              idCred := opened.idCredR
              cred := opened.retrieved.cred
              ead := opened.ead2 }
  | .takesMessage3 _ responder buffers msg1 rc msg3 output =>
      ∃ opened ciphertext2,
        msg3Open platform responder buffers rc msg3 = .ok opened ∧
          rc.staticDhI = false ∧
          HasCiphertext2 platform responder msg1 rc ciphertext2 ∧
          attestation =
            { signed := .message3
              suite := rc.suite
              pk := opened.retrieved.pk
              prk := output.prk4x3m
              message1 := msg1
              gY := responder.gY
              cR := responder.cR
              ciphertext2 := ciphertext2
              idCred := opened.idCredI
              cred := opened.retrieved.cred
              ead := opened.ead3 }

/-- The step makes a signature of the byte string. -/
def SessionStep.Makes (step : SessionStep) (alg : SignAlg)
    (pk message : Bytes) : Prop :=
  ∃ attestation sk signature,
    step.Signs platform attestation ∧ attestation.suite.edhocSign = alg ∧
      attestation.pk = pk ∧
      attestation.toBeSigned platform = .ok message ∧
      platform.crypto.sign alg sk pk message = some signature

/-- The step finds that a signature of the byte string is valid. -/
def SessionStep.Verifies (step : SessionStep) (alg : SignAlg)
    (pk message : Bytes) : Prop :=
  ∃ attestation signature,
    step.Accepts platform attestation ∧ attestation.suite.edhocSign = alg ∧
      attestation.pk = pk ∧
      attestation.toBeSigned platform = .ok message ∧
      platform.crypto.verify alg pk message signature = some true

/-- Under the keys in question there are no valid signatures but those that
have been made before. -/
def SignaturesGenuine (genuine : Bytes → Prop) (steps : List SessionStep) :
    Prop :=
  Throughout
    (fun past step => ∀ alg pk message,
      genuine pk → step.Verifies platform alg pk message →
      ∃ earlier ∈ past, earlier.Makes platform alg pk message)
    steps

/-- What is signed does not collide with what is accepted. -/
def NoCollisions (steps : List SessionStep) : Prop :=
  ∀ left ∈ steps, ∀ right ∈ steps, ∀ signed accepted,
    left.Signs platform signed → right.Accepts platform accepted →
      ¬ Attestation.Collide platform signed accepted

/-- The initiators hold byte arrays of the lengths that the code can have. -/
def SessionStep.IsStored : SessionStep → Prop
  | .sendsMessage3 _ initiator .. => initiator.IsStored
  | .sendsMessage2 .. | .takesMessage3 .. => True

end

section Steps

variable {platform : EdhocPlatform} {step earlier : SessionStep}
  {attestation signed accepted : Attestation}

/-! ## What is signed and accepted -/

theorem signatureOrMacGenerate_signed {suite : Suite}
    {sk pk prk th idCred cred ead macLabel signature : Bytes}
    (run : signatureOrMacGenerate platform false suite sk pk prk th idCred
      cred ead macLabel = .ok signature) :
    ∃ tag message,
      mac platform prk th idCred cred ead macLabel false suite = .ok tag ∧
        signatureStructGen platform th idCred cred ead tag = .ok message ∧
        platform.crypto.sign suite.edhocSign sk pk message =
          some signature := by
  unfold signatureOrMacGenerate at run
  simp only [outcome_bind_eq_ok, Bool.false_eq_true, if_false,
    tryExpect_eq_ok] at run
  obtain ⟨tag, isTag, message, isMessage, made⟩ := run
  exact ⟨tag, message, isTag, isMessage, made⟩

theorem signatureOrMacVerify_verified {stack : Stack} {suite : Suite}
    {pk prk th idCred cred ead macLabel signature : Bytes}
    (run : signatureOrMacVerify platform stack false suite pk prk th idCred
      cred ead macLabel signature = .ok ()) :
    ∃ tag message,
      mac platform prk th idCred cred ead macLabel false suite = .ok tag ∧
        signatureStructGen platform th idCred cred ead tag = .ok message ∧
        platform.crypto.verify suite.edhocSign pk message signature =
          some true := by
  unfold signatureOrMacVerify at run
  simp only [outcome_bind_eq_ok, Bool.false_eq_true, if_false,
    tryExpect_eq_ok] at run
  obtain ⟨_, _, tag, isTag, message, isMessage, result, verified, done⟩ := run
  cases result with
  | true =>
      exact ⟨tag, message, isTag, isMessage, verified⟩
  | false =>
      cases done

/-- The transcript of a step that has parsed `message_2`. -/
theorem Parses.th2 {msg1 msg2 : Bytes} {parsed : ParsedMsg2}
    {initiator : InitiatorContext} {buffers : InitiatorBuffers}
    {opened : OpenedMsg2}
    (isOpened : msg2Open platform initiator buffers msg1 msg2 = .ok opened)
    (parses : Parses platform opened.suite msg2 parsed) :
    th2Calculate platform opened.suite.edhocHash msg1 parsed.gY parsed.cR =
        .ok opened.th2 ∧
      parsed.ciphertext2 = opened.ciphertext2 := by
  obtain ⟨other, _, _, _, _, _, _, parses', _, isTh2, _, _, _, _, _, _,
    isCiphertext2, _, _⟩ := msg2Open_eq_ok.mp isOpened
  unfold Parses at parses
  rw [parses, Except.ok.injEq] at parses'
  subst parses'
  exact ⟨isTh2, isCiphertext2.symm⟩

/-- The step signs what is attested. -/
theorem SessionStep.Signs.makes (happens : step.Happens platform)
    (signs : step.Signs platform attestation) :
    ∃ message,
      attestation.toBeSigned platform = .ok message ∧
        step.Makes platform attestation.suite.edhocSign attestation.pk
          message := by
  suffices made : ∃ message sk signature,
      attestation.toBeSigned platform = .ok message ∧
        platform.crypto.sign attestation.suite.edhocSign sk attestation.pk
          message = some signature by
    obtain ⟨message, sk, signature, toBeSigned, made⟩ := made
    exact
      ⟨message, toBeSigned, attestation, sk, signature, signs, rfl, rfl,
        toBeSigned, made⟩
  cases step with
  | sendsMessage2 responder buffers msg1 rc =>
      obtain ⟨selected, ciphertext2, processed, isSignature, _, rfl⟩ := signs
      obtain ⟨other, th2, _, _, staticDhR, prk3e2m, signOrMac2, _, _,
        processed', isTh2, _, _, isStaticDhR, _, generated, _, _, _, isRc⟩ :=
        msg2Gen_eq_ok.mp happens
      rw [processed, Except.ok.injEq] at processed'
      subst processed'
      rw [isSignature, Option.some.injEq] at isStaticDhR
      subst isStaticDhR
      obtain ⟨tag, message, isTag, isMessage, made⟩ :=
        signatureOrMacGenerate_signed generated
      have isSuite : rc.suite = selected.suite := by rw [isRc]
      have isPrk : rc.prk3e2m = prk3e2m := by rw [isRc]
      refine ⟨message, responder.skR, signOrMac2, ?_, ?_⟩
      · simp only [Attestation.toBeSigned, Attestation.th,
          Attestation.transcript, Transcript.th2, outcome_bind_eq_ok, isSuite,
          isPrk]
        exact ⟨th2, isTh2, tag, isTag, isMessage⟩
      · rw [isSuite]
        exact made
  | sendsMessage3 stack initiator buffers msg1 msg2 output =>
      obtain ⟨_, generated⟩ := happens
      obtain ⟨opened, parsed, isOpened, isSignature, parses, rfl⟩ := signs
      obtain ⟨other, th3, signOrMac3, _, isOpened', _, isTh3, _, made, _⟩ :=
        msg3Gen_eq_ok.mp generated
      rw [isOpened, Except.ok.injEq] at isOpened'
      subst isOpened'
      obtain ⟨isTh2, isCiphertext2⟩ := parses.th2 isOpened
      rw [isSignature] at made
      obtain ⟨tag, message, isTag, isMessage, made⟩ :=
        signatureOrMacGenerate_signed made
      refine ⟨message, initiator.skI, signOrMac3, ?_, made⟩
      simp only [Attestation.toBeSigned, Attestation.th,
        Attestation.transcript, Transcript.th3, Transcript.th2,
        outcome_bind_eq_ok, isCiphertext2]
      exact ⟨th3, ⟨opened.th2, isTh2, isTh3⟩, tag, isTag, isMessage⟩
  | takesMessage3 =>
      exact absurd signs id

/-- The step accepts a signature of what is attested. -/
theorem SessionStep.Accepts.verifies (happens : step.Happens platform)
    (accepts : step.Accepts platform attestation) :
    ∃ message,
      attestation.toBeSigned platform = .ok message ∧
        step.Verifies platform attestation.suite.edhocSign attestation.pk
          message := by
  suffices verified : ∃ message signature,
      attestation.toBeSigned platform = .ok message ∧
        platform.crypto.verify attestation.suite.edhocSign attestation.pk
          message signature = some true by
    obtain ⟨message, signature, toBeSigned, verified⟩ := verified
    exact
      ⟨message, toBeSigned, attestation, signature, accepts, rfl, rfl,
        toBeSigned, verified⟩
  cases step with
  | sendsMessage2 =>
      exact absurd accepts id
  | sendsMessage3 stack initiator buffers msg1 msg2 output =>
      obtain ⟨_, generated⟩ := happens
      obtain ⟨opened, parsed, isOpened, isSignature, parses, rfl⟩ := accepts
      obtain ⟨other, _, _, _, isOpened', verified, _⟩ :=
        msg3Gen_eq_ok.mp generated
      rw [isOpened, Except.ok.injEq] at isOpened'
      subst isOpened'
      obtain ⟨isTh2, _⟩ := parses.th2 isOpened
      rw [isSignature] at verified
      obtain ⟨tag, message, isTag, isMessage, verified⟩ :=
        signatureOrMacVerify_verified verified
      refine ⟨message, opened.signOrMac, ?_, verified⟩
      simp only [Attestation.toBeSigned, Attestation.th,
        Attestation.transcript, Transcript.th2, outcome_bind_eq_ok]
      exact ⟨opened.th2, isTh2, tag, isTag, isMessage⟩
  | takesMessage3 stack responder buffers msg1 rc msg3 output =>
      obtain ⟨_, processed⟩ := happens
      obtain ⟨opened, ciphertext2, isOpened, isSignature, has, rfl⟩ := accepts
      obtain ⟨other, isOpened', verified, _, _, isPrk⟩ :=
        msg3Process_eq_ok.mp processed
      rw [isOpened, Except.ok.injEq] at isOpened'
      subst isOpened'
      obtain ⟨_, th2, isTh2, isTh3⟩ := has
      rw [isSignature] at verified
      obtain ⟨tag, message, isTag, isMessage, verified⟩ :=
        signatureOrMacVerify_verified verified
      refine ⟨message, opened.signOrMac, ?_, verified⟩
      simp only [Attestation.toBeSigned, Attestation.th,
        Attestation.transcript, Transcript.th3, Transcript.th2,
        outcome_bind_eq_ok, isPrk]
      exact ⟨rc.th3, ⟨th2, isTh2, isTh3⟩, tag, isTag, isMessage⟩

/-! ## The suite -/

/-- Both parties use the suite that the initiator has selected in
`message_1`. -/
theorem suite_agrees (inverts : platform.zcbor.Inverts platform.cbor)
    (earlierStored : earlier.IsStored) (stepStored : step.IsStored)
    (earlierHappens : earlier.Happens platform)
    (happens : step.Happens platform)
    (signs : earlier.Signs platform signed)
    (accepts : step.Accepts platform accepted)
    (agrees : signed.Agrees accepted) : signed.suite = accepted.suite := by
  have sameStage := agrees.signed
  have sameMessage := agrees.message1
  have initiatorSuite : ∀ {initiator : InitiatorContext}
      {buffers : InitiatorBuffers} {msg1 msg2 : Bytes} {opened : OpenedMsg2},
      msg2Open platform initiator buffers msg1 msg2 = .ok opened →
        selectedSuite initiator.suitesI = .ok opened.suite := by
    intro initiator buffers msg1 msg2 opened isOpened
    obtain ⟨_, _, _, _, isSuite, _⟩ := msg2Open_eq_ok.mp isOpened
    exact isSuite
  cases step with
  | sendsMessage2 =>
      exact absurd accepts id
  | sendsMessage3 stack initiator buffers msg1 msg2 output =>
      obtain ⟨opened, parsed, isOpened, _, _, rfl⟩ := accepts
      cases earlier with
      | sendsMessage2 responder buffers msg1 rc =>
          obtain ⟨_, _, _, _, _, rfl⟩ := signs
          dsimp only at sameMessage
          subst sameMessage
          have selected :=
            msg2Gen_suite inverts stepStored happens.1 earlierHappens
          rw [initiatorSuite isOpened, Except.ok.injEq] at selected
          exact selected.symm
      | sendsMessage3 =>
          obtain ⟨_, _, _, _, _, rfl⟩ := signs
          cases sameStage
      | takesMessage3 =>
          exact absurd signs id
  | takesMessage3 stack responder buffers msg1 rc msg3 output =>
      obtain ⟨_, _, _, _, _, rfl⟩ := accepts
      cases earlier with
      | sendsMessage2 =>
          obtain ⟨_, _, _, _, _, rfl⟩ := signs
          cases sameStage
      | sendsMessage3 stack initiator buffers msg1 msg2 output =>
          obtain ⟨opened, parsed, isOpened, _, _, rfl⟩ := signs
          dsimp only at sameMessage
          subst sameMessage
          have selected :=
            msg2Gen_suite inverts earlierStored earlierHappens.1 happens.1
          rw [initiatorSuite isOpened, Except.ok.injEq] at selected
          exact selected
      | takesMessage3 =>
          exact absurd signs id

theorem hasCiphertext2_unique (canonical : platform.cbor.IsCanonical)
    {responder : ResponderContext} {msg1 : Bytes} {rc : Msg2Output}
    {left right : Bytes}
    (leftHas : HasCiphertext2 platform responder msg1 rc left)
    (rightHas : HasCiphertext2 platform responder msg1 rc right) :
    left = right := by
  obtain ⟨leftEncoded, _⟩ := leftHas
  obtain ⟨rightEncoded, _⟩ := rightHas
  unfold msg2Encode encodeM2 at leftEncoded rightEncoded
  simp only [outcome_bind_eq_ok, memcpy_eq_ok, cborEncode_eq_ok]
    at leftEncoded rightEncoded
  obtain ⟨_, _, _, ⟨leftFits, rfl⟩, _, isLeft⟩ := leftEncoded
  obtain ⟨_, _, _, ⟨rightFits, rfl⟩, _, isRight⟩ := rightEncoded
  have same := isLeft.symm.trans isRight
  have size : gYDefaultSize + ciphertext2DefaultSize < 2 ^ 32 := by
    decide
  rw [canonical.bstr] at same
  obtain ⟨sameString, _⟩ :=
    canonicalCbor_bstr_append_injective (by omega) (by omega) same
  exact List.append_cancel_left sameString

/-- An accepted signature comes from a step that agrees. -/
theorem accepted_signed (canonical : platform.cbor.IsCanonical)
    (inverts : platform.zcbor.Inverts platform.cbor)
    {past : List SessionStep}
    (stored : ∀ other ∈ past ++ [step], other.IsStored)
    (happened : ∀ other ∈ past ++ [step], other.Happens platform)
    (accepts : step.Accepts platform accepted)
    (made : ∀ message,
      step.Verifies platform accepted.suite.edhocSign accepted.pk message →
      ∃ other ∈ past,
        other.Makes platform accepted.suite.edhocSign accepted.pk message)
    (noCollision : ∀ other ∈ past, ∀ signed,
      other.Signs platform signed →
        ¬ Attestation.Collide platform signed accepted) :
    ∃ other ∈ past, ∃ signed,
      other.Signs platform signed ∧ signed.pk = accepted.pk ∧
        signed.suite = accepted.suite ∧ signed.Agrees accepted := by
  have last : step ∈ past ++ [step] := by simp
  obtain ⟨message, toBeSigned, verifies⟩ :=
    accepts.verifies (happened step last)
  obtain ⟨other, member, signed, _, _, signs, _, samePk, sameMessage, _⟩ :=
    made message verifies
  rcases agrees_of_toBeSigned canonical sameMessage toBeSigned with
    agrees | collision
  · have before : other ∈ past ++ [step] := List.mem_append_left _ member
    have sameSuite :=
      suite_agrees inverts (stored other before) (stored step last)
        (happened other before) (happened step last) signs accepts agrees
    exact ⟨other, member, signed, signs, samePk, sameSuite, agrees⟩
  · exact absurd collision (noCollision other member signed signs)

/-! ## Whole runs -/

/-- The last step of a run of the initiator. -/
theorem initiatorRun_step {stack : Stack} {initiator : InitiatorContext}
    {buffers : InitiatorBuffers} {incoming left sent : List Bytes}
    {out : InitiatorOutput}
    (run : exec (edhocInitiatorRun platform stack initiator buffers)
      ⟨incoming, []⟩ = (.ok out, ⟨left, sent⟩)) :
    ∃ msg1 msg2 output,
      msg2 ∈ incoming ∧ msg1 ∈ sent ∧
        out.prk4x3m = output.prk4x3m ∧ out.th4 = output.th4 ∧
        (SessionStep.sendsMessage3 stack initiator buffers msg1 msg2
          output).Happens platform ∧
        (initiator.method = 0 ∨ initiator.method = 2 →
          ∃ accepted,
            (SessionStep.sendsMessage3 stack initiator buffers msg1 msg2
              output).Accepts platform accepted) := by
  obtain ⟨msg1, msg2, later, output, generated1, isIncoming, _, generated3,
    isSent, ends⟩ := edhocInitiatorRun_eq_ok.mp ⟨left, run⟩
  obtain ⟨_, isPrk, isTh4⟩ := ends.keys
  refine
    ⟨msg1, msg2, output, by simp [isIncoming], by simp [isSent], isPrk, isTh4,
      ⟨generated1, generated3⟩, ?_⟩
  intro signature
  obtain ⟨opened, _, _, _, isOpened, _⟩ := msg3Gen_eq_ok.mp generated3
  obtain ⟨parsed, _, _, _, _, _, isStaticDhR, parses, _⟩ :=
    msg2Open_eq_ok.mp isOpened
  refine ⟨_, opened, parsed, isOpened, ?_, parses, rfl⟩
  rcases signature with isMethod | isMethod
  · rw [isMethod] at isStaticDhR
    exact (Option.some.inj isStaticDhR).symm
  · rw [isMethod] at isStaticDhR
    exact (Option.some.inj isStaticDhR).symm

/-- The last step of a run of the responder. -/
theorem responderRun_step {stack : Stack} {responder : ResponderContext}
    {buffers : ResponderBuffers} {incoming left sent : List Bytes}
    {out : ResponderOutput}
    (run : exec (edhocResponderRun platform stack responder buffers)
      ⟨incoming, []⟩ = (.ok out, ⟨left, sent⟩)) :
    ∃ msg1 rc msg3 output,
      msg1 ∈ incoming ∧ msg3 ∈ incoming ∧ rc.msg2 ∈ sent ∧
        out.prk4x3m = output.prk4x3m ∧ out.th4 = output.th4 ∧
        (SessionStep.takesMessage3 stack responder buffers msg1 rc msg3
          output).Happens platform ∧
        (rc.staticDhI = false →
          ∃ accepted,
            (SessionStep.takesMessage3 stack responder buffers msg1 rc msg3
                output).Accepts platform accepted ∧
              accepted.prk = out.prk4x3m) := by
  obtain ⟨msg1, msg3, _, rc, output, last, isIncoming, _, _, generated2,
    processed3, _, isSent, isOut⟩ := edhocResponderRun_eq_ok.mp ⟨left, run⟩
  refine
    ⟨msg1, rc, msg3, output, by simp [isIncoming], by simp [isIncoming],
      by simp [isSent], by rw [isOut], by rw [isOut],
      ⟨generated2, processed3⟩, ?_⟩
  intro signature
  obtain ⟨opened, isOpened, _⟩ := msg3Process_eq_ok.mp processed3
  obtain ⟨selected, th2, _, _, _, _, _, ciphertext2, _, _, isTh2, _, _, _, _,
    _, _, encoded, isTh3, isRc⟩ := msg2Gen_eq_ok.mp generated2
  have has : HasCiphertext2 platform responder msg1 rc ciphertext2 := by
    rw [isRc]
    exact ⟨encoded, th2, isTh2, isTh3⟩
  exact
    ⟨_, ⟨opened, ciphertext2, isOpened, signature, has, rfl⟩, by rw [isOut]⟩

end Steps

/-- Whoever accepts a signature of a genuine key agrees with an earlier step of
the owner of the key.  Every run that returns `ok` has accepted one where the
method has the peer sign. -/
theorem signatures_authenticate (platform : EdhocPlatform)
    (canonical : platform.cbor.IsCanonical)
    (inverts : platform.zcbor.Inverts platform.cbor)
    (genuine : Bytes → Prop) (steps : List SessionStep)
    (stored : ∀ step ∈ steps, step.IsStored)
    (happened : ∀ step ∈ steps, step.Happens platform)
    (signaturesGenuine : SignaturesGenuine platform genuine steps)
    (noCollisions : NoCollisions platform steps) :
    Throughout
        (fun past step => ∀ accepted,
          step.Accepts platform accepted → genuine accepted.pk →
          ∃ earlier ∈ past, ∃ signed,
            earlier.Signs platform signed ∧ signed.pk = accepted.pk ∧
              signed.suite = accepted.suite ∧ signed.Agrees accepted)
        steps ∧
      (∀ (stack : Stack) (initiator : InitiatorContext)
          (buffers : InitiatorBuffers) (incoming left sent : List Bytes)
          (out : InitiatorOutput),
        exec (edhocInitiatorRun platform stack initiator buffers)
            ⟨incoming, []⟩ = (.ok out, ⟨left, sent⟩) →
        ∃ msg1 msg2 output,
          msg2 ∈ incoming ∧ msg1 ∈ sent ∧
            out.prk4x3m = output.prk4x3m ∧ out.th4 = output.th4 ∧
            (SessionStep.sendsMessage3 stack initiator buffers msg1 msg2
              output).Happens platform ∧
            (initiator.method = 0 ∨ initiator.method = 2 →
              ∃ accepted,
                (SessionStep.sendsMessage3 stack initiator buffers msg1 msg2
                  output).Accepts platform accepted)) ∧
      (∀ (stack : Stack) (responder : ResponderContext)
          (buffers : ResponderBuffers) (incoming left sent : List Bytes)
          (out : ResponderOutput),
        exec (edhocResponderRun platform stack responder buffers)
            ⟨incoming, []⟩ = (.ok out, ⟨left, sent⟩) →
        ∃ msg1 rc msg3 output,
          msg1 ∈ incoming ∧ msg3 ∈ incoming ∧ rc.msg2 ∈ sent ∧
            out.prk4x3m = output.prk4x3m ∧ out.th4 = output.th4 ∧
            (SessionStep.takesMessage3 stack responder buffers msg1 rc msg3
              output).Happens platform ∧
            (rc.staticDhI = false →
              ∃ accepted,
                (SessionStep.takesMessage3 stack responder buffers msg1 rc
                    msg3 output).Accepts platform accepted ∧
                  accepted.prk = out.prk4x3m)) := by
  refine ⟨?_, ?_, ?_⟩
  · intro past step rest split accepted accepts isGenuine
    have upTo : ∀ other ∈ past ++ [step], other ∈ steps := by
      intro other member
      rw [split, List.append_cons]
      exact List.mem_append_left _ member
    apply
      accepted_signed canonical inverts
        (fun other member => stored other (upTo other member))
        (fun other member => happened other (upTo other member)) accepts
    · intro message verifies
      exact
        signaturesGenuine past step rest split _ _ message isGenuine verifies
    · intro other member signed signs
      apply noCollisions other _ step _ signed accepted signs accepts
      · exact upTo other (List.mem_append_left _ member)
      · exact upTo step (by simp)
  · intro stack initiator buffers incoming left sent out run
    exact initiatorRun_step run
  · intro stack responder buffers incoming left sent out run
    exact responderRun_step run

/-! ## The thirteenth test vector of the repository -/

def v13X : Bytes :=
  [0xFC, 0x51, 0x92, 0x73, 0xC0, 0x1D, 0xCA, 0xC0, 0x94, 0xDE, 0x78, 0xA0,
    0x53, 0x9D, 0x45, 0xFE, 0x36, 0xA9, 0x44, 0xA2, 0x4D, 0x11, 0xCE, 0x8C,
    0x87, 0x81, 0x99, 0x42, 2, 0xBF, 0x8A, 0x46]

def v13GX : Bytes :=
  [0x9F, 0x38, 0xD3, 0xEC, 0x37, 0x3C, 0xA0, 0xD3, 0x88, 0x8B, 0x4E, 0x1B,
    0xF3, 0x20, 0x1D, 0, 0xC6, 0xD8, 0xFA, 0x9B, 1, 0xCD, 0x86, 0x6D, 0xD0,
    0x66, 0x23, 0x51, 0xAE, 0xAF, 0xD7, 0x12]

def v13Y : Bytes :=
  [0x90, 0x59, 0xC6, 0x98, 0xA4, 0x9B, 0x90, 0xA3, 0x4F, 0x42, 0x2C, 0x6F,
    0xB6, 0x37, 0xF3, 0x7F, 0xB5, 0x29, 0xF2, 0x88, 0xCA, 0x70, 0x78, 0xB2,
    0x63, 0x88, 0x66, 0x16, 0xBA, 0x1E, 0xC2, 0xE7]

def v13GY : Bytes :=
  [0x59, 0x0B, 0x2B, 0xB6, 0x5D, 0, 0x11, 0x76, 0x34, 0x0C, 0xB4, 0xAB, 0x8D,
    0x37, 0x97, 0x37, 4, 0x14, 0x7C, 0xB4, 0xE5, 0x2B, 0xEE, 0x25, 0x3E, 0x7D,
    0x3F, 0xBB, 0x47, 0x64, 0x26, 0x2C]

def v13GXy : Bytes :=
  [0xB1, 0xA3, 0xFF, 0x1A, 0x19, 0xC2, 0x63, 0x40, 0x1D, 0xCA, 0x87, 0x12,
    0xB2, 0xE5, 0xD8, 0x9F, 0x59, 0xD5, 0xFD, 0xA5, 0x3E, 0xEE, 0xBC, 0xDE,
    0x9A, 0xC5, 0x13, 0xA3, 0xF0, 0x58, 0xC4, 0x5A]

def v13Prk : Bytes :=
  [0xE3, 0xD3, 0x78, 0x8F, 0xA9, 0x18, 0x12, 0x28, 0xE5, 0xA2, 0xB9, 0x43,
    0xCA, 0x15, 0x23, 0x8B, 0x6E, 0xB3, 0x1D, 0xF0, 0x8D, 0xC7, 0x91, 0x12,
    0x3E, 0xD3, 0xE2, 0xF3, 0x0A, 0x8A, 0xB7, 0xAD]

def v13SkR : Bytes :=
  [0xE8, 0xC3, 0xDE, 0x7D, 0xFB, 0xDD, 0xD6, 3, 0x62, 6, 0x85, 0xB5, 0x4E,
    0x77, 0xD0, 0x33, 0xF6, 0x5D, 0xC5, 0xA6, 0xE9, 0xDA, 0x89, 0xEB, 0xA3,
    0x4C, 0x91, 0xF5, 0x5F, 0xD1, 0x15, 0x6C]

def v13PkR : Bytes :=
  [0x23, 2, 0x1D, 0x83, 0xFB, 0xB2, 0x84, 0x65, 0x97, 0x1C, 0xF9, 0x53, 0x7A,
    0x42, 0x64, 0xF8, 8, 0x9C, 0xD9, 0x0E, 0x65, 0x9D, 0x99, 0xCF, 0x2E, 0xED,
    0x74, 0xD0, 0xA2, 0x88, 7, 0xB9]

def v13SkI : Bytes :=
  [0x2D, 0x0B, 0xC2, 0x9A, 0x44, 0x20, 0xB0, 0x88, 0x99, 5, 0x93, 0x64, 0xB1,
    0xFD, 0x35, 0x26, 0xB3, 0x5C, 0x24, 0x74, 0xC1, 0x91, 0xA7, 0xC2, 0x88,
    0x63, 0xF7, 0xBD, 0x16, 0x7B, 0xAC, 0xEA]

def v13PkI : Bytes :=
  [0x1A, 0xDE, 0xFD, 0x11, 0x70, 0x47, 0x2D, 0xE7, 0xE9, 0x0D, 0x73, 0xE1,
    0x4C, 0x5E, 0xCF, 0xCA, 0x67, 0x30, 0x0B, 0x7B, 0xD0, 0xB0, 0x5F, 0x99,
    0x73, 0xFD, 0x1E, 0xB3, 0x70, 0x3A, 0x1A, 0xBF]

def v13IdCredR : Bytes :=
  [0xA1, 4, 0x2E]

def v13CredR : Bytes :=
  [0xA2, 2, 0x6B, 0x65, 0x78, 0x61, 0x6D, 0x70, 0x6C, 0x65, 0x2E, 0x65, 0x64,
    0x75, 8, 0xA1, 1, 0xA4, 1, 1, 2, 0x2E, 0x20, 6, 0x21, 0x58, 0x20, 0x23, 2,
    0x1D, 0x83, 0xFB, 0xB2, 0x84, 0x65, 0x97, 0x1C, 0xF9, 0x53, 0x7A, 0x42,
    0x64, 0xF8, 8, 0x9C, 0xD9, 0x0E, 0x65, 0x9D, 0x99, 0xCF, 0x2E, 0xED, 0x74,
    0xD0, 0xA2, 0x88, 7, 0xB9]

def v13IdCredI : Bytes :=
  [0xA1, 4, 0x15]

def v13CredI : Bytes :=
  [0xA2, 2, 0x77, 0x34, 0x32, 0x2D, 0x35, 0x30, 0x2D, 0x33, 0x31, 0x2D, 0x46,
    0x46, 0x2D, 0x45, 0x46, 0x2D, 0x33, 0x37, 0x2D, 0x33, 0x32, 0x2D, 0x33,
    0x39, 8, 0xA1, 1, 0xA4, 1, 1, 2, 0x15, 0x20, 6, 0x21, 0x58, 0x20, 0x1A,
    0xDE, 0xFD, 0x11, 0x70, 0x47, 0x2D, 0xE7, 0xE9, 0x0D, 0x73, 0xE1, 0x4C,
    0x5E, 0xCF, 0xCA, 0x67, 0x30, 0x0B, 0x7B, 0xD0, 0xB0, 0x5F, 0x99, 0x73,
    0xFD, 0x1E, 0xB3, 0x70, 0x3A, 0x1A, 0xBF]

def v13Message1 : Bytes :=
  [0, 0, 0x58, 0x20, 0x9F, 0x38, 0xD3, 0xEC, 0x37, 0x3C, 0xA0, 0xD3, 0x88,
    0x8B, 0x4E, 0x1B, 0xF3, 0x20, 0x1D, 0, 0xC6, 0xD8, 0xFA, 0x9B, 1, 0xCD,
    0x86, 0x6D, 0xD0, 0x66, 0x23, 0x51, 0xAE, 0xAF, 0xD7, 0x12, 0x33]

def v13HashMessage1 : Bytes :=
  [0x38, 0x28, 0x3A, 0x89, 0xDD, 0x39, 0x73, 0x21, 0x48, 0xE1, 0x65, 0x4F,
    0x94, 0xBD, 0xDF, 0x7C, 0xEF, 0x79, 0x14, 0xC1, 0xAF, 0x0D, 0xFE, 0xC7,
    0xD7, 1, 0x50, 0x6F, 0x88, 0x8D, 0x2F, 0xC0]

def v13Th2 : Bytes :=
  [0x19, 0xFF, 0xB4, 0x85, 0x1D, 0x4C, 0x84, 0xC1, 0x75, 0x20, 0x85, 0x72,
    0xE6, 0x98, 0x4D, 0xD4, 0x10, 0x1C, 0x92, 0xD1, 0xFA, 0x0B, 0xE9, 0xD8,
    0x70, 0xB5, 0xC3, 0xB7, 0x45, 0x62, 0xD6, 0xAF]

def v13Th3 : Bytes :=
  [0xD5, 0x38, 0x78, 0xEE, 0xA3, 0xE7, 0x72, 0xEB, 0xF8, 0xFB, 0xCC, 0xBA,
    0xCE, 0x72, 0x83, 0x5F, 0xAF, 0x25, 0x1F, 0x66, 0x2B, 0x2A, 0x46, 0x44,
    0x66, 0xE9, 0xDA, 0x36, 0xDC, 0x1E, 0x79, 0xD8]

def v13Th4 : Bytes :=
  [0x57, 0xCA, 0xDD, 0xDB, 0x9C, 0x92, 7, 0x2A, 0xFD, 0x2C, 0xBD, 0x49, 0x20,
    0xA4, 9, 0xE1, 0x55, 0x35, 0x41, 8, 0x61, 0xE6, 0x79, 0xA6, 0x4E, 0x44,
    0x2B, 0xFD, 0xDA, 0x1F, 0xDC, 0xB1]

def v13Mac2 : Bytes :=
  [0xC8, 0xB3, 8, 0xB8, 0xE6, 0xAC, 0xBC, 0xE4, 0x56, 0xB9, 0xB2, 0x1D, 5,
    0xFC, 0x90, 0xC6, 0x60, 0x75, 0x2C, 0x1C, 0x73, 0x95, 0x34, 0x70, 0x55,
    0x63, 0x8B, 0xB4, 0x59, 0x9A, 0x6B, 0xA2]

def v13Signature2 : Bytes :=
  [0xD6, 0xE8, 0x44, 0xBE, 0x86, 0x76, 0x52, 0x36, 0x5B, 0xB0, 0xDB, 0x50,
    0xCC, 0x5E, 0xB0, 0xFE, 0x4C, 0x36, 0x42, 0x1F, 0xA6, 0xBB, 0x48, 0xAB,
    0x75, 0x69, 0x74, 0xC4, 0x13, 0xB6, 0xEB, 0x17, 0xD2, 0x9C, 0x75, 0x23, 9,
    0xC9, 0x6B, 0xA5, 0x71, 0xD8, 0x53, 0x3B, 0x9A, 0x36, 0x5A, 0x31, 0xB1,
    0x22, 0x95, 0x4B, 0x5D, 0x45, 0xE1, 0x6F, 0xF9, 0x49, 0xAA, 0xA3, 0x0C,
    0x88, 0x62, 3]

def v13Keystream2 : Bytes :=
  [0xE7, 0x39, 0x91, 0xEF, 0xEC, 0x2A, 0x0C, 0x89, 0x87, 0xBE, 0x5B, 0x83,
    0xD5, 0xC2, 5, 0x3E, 0xD2, 0x98, 0xEF, 0x7C, 0x37, 0x13, 0x17, 0x26, 0xAA,
    0xD7, 0x5E, 0x9C, 0xFF, 0x52, 0xC3, 0x3B, 0xC1, 1, 0xCD, 0x3C, 0x46, 0xC7,
    0x89, 0xA0, 0xD9, 0xB1, 0x66, 0x15, 0x75, 0x2A, 0xE0, 0xCF, 0x2B, 0x27,
    0x19, 0x8C, 0xF6, 0xD4, 0x7F, 0x46, 0xE8, 0xE4, 0x7B, 0x60, 5, 0x34, 0x66,
    0xC7, 0xCC, 0xC7, 0x37]

def v13Ciphertext2 : Bytes :=
  [0xC9, 0x61, 0xD1, 0x39, 4, 0x6E, 0xB2, 0x0F, 0xF1, 0xEC, 0x6D, 0xD8, 0x65,
    0x19, 0x55, 0xF2, 0x8C, 0x28, 0x11, 0x30, 1, 0x51, 8, 0x80, 0x11, 0x9F,
    0xF5, 0xE9, 0x96, 0x26, 7, 0x28, 0x77, 0xEA, 0xDA, 0xEE, 0xDA, 0xB2, 0xAA,
    0xA9, 0x10, 0xDA, 0xC3, 0x64, 0xAD, 0x79, 0xDB, 0x55, 0x1D, 0x7D, 0x28,
    0x3D, 0xD4, 0x41, 0x34, 0x1B, 0xAD, 5, 0x14, 0x99, 0x4C, 0x9E, 0xC5, 0xCB,
    0x44, 0xA5, 0x34]

def v13Message2 : Bytes :=
  [0x58, 0x63, 0x59, 0x0B, 0x2B, 0xB6, 0x5D, 0, 0x11, 0x76, 0x34, 0x0C, 0xB4,
    0xAB, 0x8D, 0x37, 0x97, 0x37, 4, 0x14, 0x7C, 0xB4, 0xE5, 0x2B, 0xEE, 0x25,
    0x3E, 0x7D, 0x3F, 0xBB, 0x47, 0x64, 0x26, 0x2C, 0xC9, 0x61, 0xD1, 0x39, 4,
    0x6E, 0xB2, 0x0F, 0xF1, 0xEC, 0x6D, 0xD8, 0x65, 0x19, 0x55, 0xF2, 0x8C,
    0x28, 0x11, 0x30, 1, 0x51, 8, 0x80, 0x11, 0x9F, 0xF5, 0xE9, 0x96, 0x26, 7,
    0x28, 0x77, 0xEA, 0xDA, 0xEE, 0xDA, 0xB2, 0xAA, 0xA9, 0x10, 0xDA, 0xC3,
    0x64, 0xAD, 0x79, 0xDB, 0x55, 0x1D, 0x7D, 0x28, 0x3D, 0xD4, 0x41, 0x34,
    0x1B, 0xAD, 5, 0x14, 0x99, 0x4C, 0x9E, 0xC5, 0xCB, 0x44, 0xA5, 0x34, 0x2E]

def v13Mac3 : Bytes :=
  [0x9E, 0x68, 0x37, 0x9D, 0x33, 0xF1, 0xA5, 0x45, 0x8E, 0x4A, 0x59, 0xD4,
    0xCB, 0x3F, 8, 0x3B, 0xA7, 0x31, 9, 0xD3, 0x55, 0x5D, 0x35, 0xB2, 0x9A,
    0x33, 0x8F, 0x66, 0, 0x31, 0x98, 0x9D]

def v13Signature3 : Bytes :=
  [0x2E, 0xF6, 1, 0xF6, 0x9A, 0x1B, 0xC8, 0xB4, 0x6B, 0x53, 0x1C, 0x23, 0x3F,
    0xE4, 0x50, 0xD3, 0xFE, 0x13, 0xCC, 0xF1, 0xF5, 0x74, 0x4F, 0x51, 0x19,
    0xB1, 0x2E, 0x49, 0xC3, 0x17, 0x14, 0x0D, 0xED, 0xF7, 0xB3, 0xCE, 0xAE,
    0x75, 0x9B, 0xE4, 0xD3, 0xBD, 0xD2, 0x18, 0xD9, 0x68, 0xB8, 0x93, 0x6C,
    0x46, 0x17, 0x1E, 0xC9, 0x5E, 0xD3, 0xD5, 0x7B, 0x8E, 0x15, 0x13, 0xCF,
    0xE0, 0x39, 9]

def v13Plaintext3 : Bytes :=
  [0x15, 0x58, 0x40, 0x2E, 0xF6, 1, 0xF6, 0x9A, 0x1B, 0xC8, 0xB4, 0x6B, 0x53,
    0x1C, 0x23, 0x3F, 0xE4, 0x50, 0xD3, 0xFE, 0x13, 0xCC, 0xF1, 0xF5, 0x74,
    0x4F, 0x51, 0x19, 0xB1, 0x2E, 0x49, 0xC3, 0x17, 0x14, 0x0D, 0xED, 0xF7,
    0xB3, 0xCE, 0xAE, 0x75, 0x9B, 0xE4, 0xD3, 0xBD, 0xD2, 0x18, 0xD9, 0x68,
    0xB8, 0x93, 0x6C, 0x46, 0x17, 0x1E, 0xC9, 0x5E, 0xD3, 0xD5, 0x7B, 0x8E,
    0x15, 0x13, 0xCF, 0xE0, 0x39, 9]

def v13K3 : Bytes :=
  [0xD6, 0xF1, 0xE6, 0xB8, 0x62, 8, 0x9B, 0x96, 0xDE, 0x17, 0x63, 0x68, 0x85,
    0x5A, 0x25, 0x8F]

def v13Iv3 : Bytes :=
  [0x83, 0x25, 0x3C, 0xD3, 0x5E, 0xCB, 0x9F, 0x50, 0x94, 0xD3, 0xF9, 0x4D,
    0x7D]

def v13Ciphertext3 : Bytes :=
  [0xD3, 0xA4, 0x4A, 0xAD, 0x6F, 0x28, 0xAD, 0x16, 2, 0xD8, 0x1D, 0x96, 0x96,
    6, 0x64, 0x0A, 6, 0x19, 0x41, 0x85, 0xE3, 0x8B, 0xC5, 0x26, 0xDC, 0x43,
    0xC8, 0xEC, 0x7E, 0x22, 0x52, 0x55, 0xFB, 0x48, 0x5A, 0xD9, 0xC7, 0xB9,
    0x76, 0xF6, 0xAF, 0x72, 0x2C, 0x0F, 0xE8, 8, 0xEF, 0xBC, 0x20, 0x9E, 0x32,
    0x86, 0x7F, 0xE1, 0xC0, 0x8E, 0x44, 0x6C, 0xC2, 0x28, 0xE2, 0xD1, 0xEA,
    0x0A, 0xF7, 0x58, 0xF0, 0x10, 0x98, 0x90, 0xE4, 0xA5, 0xF1, 0x5E, 0x14]

def v13Message3 : Bytes :=
  [0x58, 0x4B, 0xD3, 0xA4, 0x4A, 0xAD, 0x6F, 0x28, 0xAD, 0x16, 2, 0xD8, 0x1D,
    0x96, 0x96, 6, 0x64, 0x0A, 6, 0x19, 0x41, 0x85, 0xE3, 0x8B, 0xC5, 0x26,
    0xDC, 0x43, 0xC8, 0xEC, 0x7E, 0x22, 0x52, 0x55, 0xFB, 0x48, 0x5A, 0xD9,
    0xC7, 0xB9, 0x76, 0xF6, 0xAF, 0x72, 0x2C, 0x0F, 0xE8, 8, 0xEF, 0xBC, 0x20,
    0x9E, 0x32, 0x86, 0x7F, 0xE1, 0xC0, 0x8E, 0x44, 0x6C, 0xC2, 0x28, 0xE2,
    0xD1, 0xEA, 0x0A, 0xF7, 0x58, 0xF0, 0x10, 0x98, 0x90, 0xE4, 0xA5, 0xF1,
    0x5E, 0x14]

def v13OscoreSecret : Bytes :=
  [0xB7, 0x0C, 0x59, 0x5D, 0xE7, 0x9E, 0xAE, 0x0C, 0x4C, 3, 0xAD, 0x32, 0xE7,
    0x34, 0xF2, 0x25]

def v13OscoreSalt : Bytes :=
  [0x7B, 0xCF, 0x5E, 0xCF, 0xE3, 0xA0, 0x52, 0x32]

/-- A recorded signature of a transcript hash, credentials and a MAC. -/
def signatureRecord (sk pk th idCred cred mac signature : Bytes) :
    (Bytes × Bytes × Bytes) × Bytes :=
  ((sk, pk,
      canonicalMapCbor.list
        [canonicalMapCbor.tstr signature1Context,
          canonicalMapCbor.bstr idCred,
          canonicalMapCbor.bstr (canonicalMapCbor.bstr th ++ cred),
          canonicalMapCbor.bstr mac]),
    signature)

/-- The calls of the wrapper in the exchange of the vector. -/
def v13Records : EdhocRecords where
  hash :=
    [ (v13Message1, v13HashMessage1),
      (canonicalCbor.bstr v13HashMessage1 ++ canonicalCbor.bstr v13GY ++
        canonicalCbor.int32 (-15), v13Th2),
      (canonicalCbor.bstr v13Th2 ++ canonicalCbor.bstr v13Ciphertext2,
        v13Th3),
      (canonicalCbor.bstr v13Th3 ++ canonicalCbor.bstr v13Ciphertext3,
        v13Th4) ]
  hkdfExtract := [ (([], v13GXy), v13Prk) ]
  hkdfExpand :=
    [ okmRecord v13Prk v13Th2 mac2Label (v13IdCredR ++ v13CredR) v13Mac2,
      okmRecord v13Prk v13Th2 keystream2Label [] v13Keystream2,
      okmRecord v13Prk v13Th3 mac3Label (v13IdCredI ++ v13CredI) v13Mac3,
      okmRecord v13Prk v13Th3 k3Label [] v13K3,
      okmRecord v13Prk v13Th3 iv3Label [] v13Iv3 ]
  sharedSecret := [ ((v13X, v13GY), v13GXy), ((v13Y, v13GX), v13GXy) ]
  aead :=
    [ ciphertextRecord v13K3 v13Iv3 v13Th3 v13Plaintext3 v13Ciphertext3 ]
  sign :=
    [ signatureRecord v13SkR v13PkR v13Th2 v13IdCredR v13CredR v13Mac2
        v13Signature2,
      signatureRecord v13SkI v13PkI v13Th3 v13IdCredI v13CredI v13Mac3
        v13Signature3 ]

theorem v13Records_lengths : v13Records.LengthsRight where
  aead := by decide +kernel
  hash := by decide +kernel
  hkdfExtract := by decide +kernel
  hkdfExpand := by decide +kernel
  sign := by decide +kernel

def v13Platform : EdhocPlatform where
  crypto := EdhocWrapper.ofRecords v13Records v13Records_lengths
  cbor := canonicalMapCbor
  zcbor := canonicalZcbor

def v13Initiator : InitiatorContext where
  msg4 := false
  cI := .int (-20)
  method := 0
  suitesI := [0]
  ead1 := []
  ead3 := []
  idCredI := v13IdCredI
  credI := v13CredI
  gX := v13GX
  x := v13X
  i := []
  skI := v13SkI
  pkI := v13PkI

def v13InitiatorBuffers : InitiatorBuffers where
  credRArray := [ ⟨v13IdCredR, v13CredR, v13PkR, [], [], []⟩ ]
  ead2Len := 256
  ead4Len := 256

def v13Responder : ResponderContext where
  msg4 := false
  cR := .int (-15)
  suitesR := [0]
  gY := v13GY
  y := v13Y
  r := []
  ead2 := []
  ead4 := []
  idCredR := v13IdCredR
  credR := v13CredR
  skR := v13SkR
  pkR := v13PkR

def v13ResponderBuffers : ResponderBuffers where
  credIArray := [ ⟨v13IdCredI, v13CredI, v13PkI, [], [], []⟩ ]
  ead1Len := 256
  ead3Len := 256

def v13Suite : Suite :=
  ⟨.aesCcm16_64_128, .sha256, .mac8, .x25519, .edDsa⟩

def v13Msg2Output : Msg2Output where
  msg2 := v13Message2
  suite := v13Suite
  staticDhI := false
  prk3e2m := v13Prk
  th3 := v13Th3
  ead1 := none

def v13Msg3Output : Msg3Output where
  msg3 := v13Message3
  suite := v13Suite
  ead2 := []
  prk4x3m := v13Prk
  th4 := v13Th4

def v13ProcessedMsg3 : ProcessedMsg3 where
  ead3 := []
  prk4x3m := v13Prk
  th4 := v13Th4

/-- The three steps of the exchange. -/
def v13Step2 : SessionStep :=
  .sendsMessage2 v13Responder v13ResponderBuffers v13Message1 v13Msg2Output

def v13Step3 : SessionStep :=
  .sendsMessage3 v1Stack v13Initiator v13InitiatorBuffers v13Message1
    v13Message2 v13Msg3Output

def v13Step4 : SessionStep :=
  .takesMessage3 v1Stack v13Responder v13ResponderBuffers v13Message1
    v13Msg2Output v13Message3 v13ProcessedMsg3

def v13Steps : List SessionStep :=
  [v13Step2, v13Step3, v13Step4]

/-- What the responder signs and the initiator checks. -/
def v13Attestation2 : Attestation where
  signed := .message2
  suite := v13Suite
  pk := v13PkR
  prk := v13Prk
  message1 := v13Message1
  gY := v13GY
  cR := .int (-15)
  ciphertext2 := v13Ciphertext2
  idCred := v13IdCredR
  cred := v13CredR
  ead := []

/-- What the initiator signs and the responder checks. -/
def v13Attestation3 : Attestation where
  signed := .message3
  suite := v13Suite
  pk := v13PkI
  prk := v13Prk
  message1 := v13Message1
  gY := v13GY
  cR := .int (-15)
  ciphertext2 := v13Ciphertext2
  idCred := v13IdCredI
  cred := v13CredI
  ead := []

theorem v13_canonical : v13Platform.cbor.IsCanonical :=
  canonicalCbor_isCanonical

def v13Opened2 : OpenedMsg2 where
  suite := v13Suite
  staticDhI := false
  staticDhR := false
  gY := v13GY
  ciphertext2 := v13Ciphertext2
  th2 := v13Th2
  prk3e2m := v13Prk
  idCredR := v13IdCredR
  retrieved := ⟨v13CredR, v13PkR, []⟩
  ead2 := []
  signOrMac := v13Signature2

def v13Parsed2 : ParsedMsg2 where
  gY := v13GY
  ciphertext2 := v13Ciphertext2
  cR := .int (-15)

def v13Opened3 : OpenedMsg3 where
  ciphertext3 := v13Ciphertext3
  prk4x3m := v13Prk
  idCredI := v13IdCredI
  retrieved := ⟨v13CredI, v13PkI, []⟩
  ead3 := []
  signOrMac := v13Signature3

/-- The exchange as the code runs it. -/
structure V13Exchange : Prop where
  msg1 : msg1Gen v13Platform v13Initiator = .ok v13Message1
  msg2 : msg2Gen v13Platform v13Responder v13ResponderBuffers v13Message1 =
    .ok v13Msg2Output
  selected : msg1Process v13Platform v13Responder v13ResponderBuffers
    v13Message1 = .ok ⟨v13Suite, false, some false, v13GX, none⟩
  encoded : msg2Encode v13Platform v13GY (.int (-15)) v13Ciphertext2 =
    .ok v13Message2
  th2 : th2Calculate v13Platform .sha256 v13Message1 v13GY (.int (-15)) =
    .ok v13Th2
  th3 : th3Calculate v13Platform .sha256 v13Th2 v13Ciphertext2 = .ok v13Th3
  parsed : Parses v13Platform v13Suite v13Message2 v13Parsed2
  opened2 : msg2Open v13Platform v13Initiator v13InitiatorBuffers v13Message1
    v13Message2 = .ok v13Opened2
  msg3 : msg3Gen v13Platform v1Stack v13Initiator v13InitiatorBuffers
    v13Message1 v13Message2 = .ok v13Msg3Output
  opened3 : msg3Open v13Platform v13Responder v13ResponderBuffers
    v13Msg2Output v13Message3 = .ok v13Opened3
  processed3 : msg3Process v13Platform v1Stack v13Responder
    v13ResponderBuffers v13Msg2Output v13Message3 = .ok v13ProcessedMsg3
  mac2 : v13Platform.crypto.hkdfExpand .sha256 v13Prk
    (v13Attestation2.macInfo v13Platform v13Th2) 32 = some v13Mac2
  mac3 : v13Platform.crypto.hkdfExpand .sha256 v13Prk
    (v13Attestation3.macInfo v13Platform v13Th3) 32 = some v13Mac3

section Exchange

variable (exchange : V13Exchange)

include exchange

theorem v13Step2_happens : v13Step2.Happens v13Platform :=
  exchange.msg2

theorem v13Step3_happens : v13Step3.Happens v13Platform :=
  ⟨exchange.msg1, exchange.msg3⟩

theorem v13Step4_happens : v13Step4.Happens v13Platform :=
  ⟨exchange.msg2, exchange.processed3⟩

theorem v13_hasCiphertext2 :
    HasCiphertext2 v13Platform v13Responder v13Message1 v13Msg2Output
      v13Ciphertext2 :=
  ⟨exchange.encoded, v13Th2, exchange.th2, exchange.th3⟩

theorem v13_signs {step : SessionStep} (member : step ∈ v13Steps)
    {attestation : Attestation} (signs : step.Signs v13Platform attestation) :
    attestation = v13Attestation2 ∨ attestation = v13Attestation3 := by
  simp only [v13Steps, List.mem_cons, List.not_mem_nil, or_false] at member
  rcases member with rfl | rfl | rfl
  · obtain ⟨_, ciphertext2, _, _, has, rfl⟩ := signs
    have same :=
      hasCiphertext2_unique v13_canonical has (v13_hasCiphertext2 exchange)
    exact Or.inl (by rw [same]; rfl)
  · obtain ⟨opened, parsed, isOpened, _, parses, rfl⟩ := signs
    rw [exchange.opened2, Except.ok.injEq] at isOpened
    subst isOpened
    have same := Except.ok.inj (exchange.parsed.symm.trans parses)
    exact Or.inr (by rw [← same]; rfl)
  · exact absurd signs id

theorem v13_accepts {step : SessionStep} (member : step ∈ v13Steps)
    {attestation : Attestation}
    (accepts : step.Accepts v13Platform attestation) :
    (step = v13Step3 ∧ attestation = v13Attestation2) ∨
      (step = v13Step4 ∧ attestation = v13Attestation3) := by
  simp only [v13Steps, List.mem_cons, List.not_mem_nil, or_false] at member
  rcases member with rfl | rfl | rfl
  · exact absurd accepts id
  · obtain ⟨opened, parsed, isOpened, _, parses, rfl⟩ := accepts
    rw [exchange.opened2, Except.ok.injEq] at isOpened
    subst isOpened
    have same := Except.ok.inj (exchange.parsed.symm.trans parses)
    exact Or.inl ⟨rfl, by rw [← same]; rfl⟩
  · obtain ⟨opened, ciphertext2, isOpened, _, has, rfl⟩ := accepts
    rw [exchange.opened3, Except.ok.injEq] at isOpened
    subst isOpened
    have same :=
      hasCiphertext2_unique v13_canonical has (v13_hasCiphertext2 exchange)
    exact Or.inr ⟨rfl, by rw [same]; rfl⟩

theorem v13Step2_signs : v13Step2.Signs v13Platform v13Attestation2 :=
  ⟨_, v13Ciphertext2, exchange.selected, rfl, v13_hasCiphertext2 exchange,
    rfl⟩

theorem v13Step3_signs : v13Step3.Signs v13Platform v13Attestation3 :=
  ⟨v13Opened2, v13Parsed2, exchange.opened2, rfl, exchange.parsed, rfl⟩

theorem v13_noCollision {left right : Attestation}
    (isLeft : left = v13Attestation2 ∨ left = v13Attestation3)
    (isRight : right = v13Attestation2 ∨ right = v13Attestation3) :
    ¬ Attestation.Collide v13Platform left right := by
  have th2 : v13Attestation2.th v13Platform = .ok v13Th2 :=
    exchange.th2
  have th3 : v13Attestation3.th v13Platform = .ok v13Th3 :=
    outcome_bind_eq_ok.mpr ⟨v13Th2, exchange.th2, exchange.th3⟩
  have different : v13Mac2 ≠ v13Mac3 := by
    decide
  rcases isLeft with rfl | rfl
  · rcases isRight with rfl | rfl
    · exact not_collide_self
    · rintro (⟨leftTh, rightTh, tag, isLeftTh, isRightTh, _, isMac2, isMac3⟩ |
        ⟨signed, _⟩)
      · rw [th2, Except.ok.injEq] at isLeftTh
        rw [th3, Except.ok.injEq] at isRightTh
        subst isLeftTh isRightTh
        have same := Option.some.inj (isMac2.symm.trans exchange.mac2)
        exact
          different
            (same.symm.trans (Option.some.inj (isMac3.symm.trans exchange.mac3)))
      · cases signed
  · rcases isRight with rfl | rfl
    · rintro (⟨leftTh, rightTh, tag, isLeftTh, isRightTh, _, isMac3, isMac2⟩ |
        ⟨signed, _⟩)
      · rw [th3, Except.ok.injEq] at isLeftTh
        rw [th2, Except.ok.injEq] at isRightTh
        subst isLeftTh isRightTh
        have same := Option.some.inj (isMac2.symm.trans exchange.mac2)
        exact
          different
            (same.symm.trans (Option.some.inj (isMac3.symm.trans exchange.mac3)))
      · cases signed
    · exact not_collide_self

/-- The keys of both parties. -/
def V13Genuine (pk : Bytes) : Prop :=
  pk = v13PkI ∨ pk = v13PkR

theorem v13_signaturesGenuine :
    SignaturesGenuine v13Platform V13Genuine v13Steps := by
  have makes : ∀ {past : List SessionStep} {step : SessionStep}
      {attestation : Attestation} {message : Bytes},
      step ∈ past → step.Happens v13Platform →
      step.Signs v13Platform attestation →
      attestation.toBeSigned v13Platform = .ok message →
      ∃ earlier ∈ past,
        earlier.Makes v13Platform attestation.suite.edhocSign attestation.pk
          message := by
    intro past step attestation message member happens signs toBeSigned
    obtain ⟨made, isMade, makes⟩ := signs.makes happens
    rw [toBeSigned, Except.ok.injEq] at isMade
    subst isMade
    exact ⟨step, member, makes⟩
  unfold SignaturesGenuine v13Steps
  rw [throughout_cons_iff, throughout_cons_iff, throughout_cons_iff]
  refine ⟨?_, ?_, ?_, throughout_nil⟩
  · rintro alg pk message _ ⟨_, _, accepts, _⟩
    exact absurd accepts id
  · rintro alg pk message _ ⟨attestation, _, accepts, rfl, rfl, toBeSigned, _⟩
    rcases v13_accepts exchange (by simp [v13Steps]) accepts with
      ⟨_, rfl⟩ | ⟨wrong, _⟩
    · exact
        makes (by simp) (v13Step2_happens exchange)
          (v13Step2_signs exchange) toBeSigned
    · cases wrong
  · rintro alg pk message _ ⟨attestation, _, accepts, rfl, rfl, toBeSigned, _⟩
    rcases v13_accepts exchange (by simp [v13Steps]) accepts with
      ⟨wrong, _⟩ | ⟨_, rfl⟩
    · cases wrong
    · exact
        makes (by simp) (v13Step3_happens exchange)
          (v13Step3_signs exchange) toBeSigned

omit exchange in
theorem v13_stored : ∀ step ∈ v13Steps, step.IsStored := by
  intro step member
  simp only [v13Steps, List.mem_cons, List.not_mem_nil, or_false] at member
  rcases member with rfl | rfl | rfl
  · trivial
  · exact ⟨by decide, trivial, by decide⟩
  · trivial

theorem v13_happened : ∀ step ∈ v13Steps, step.Happens v13Platform := by
  intro step member
  simp only [v13Steps, List.mem_cons, List.not_mem_nil, or_false] at member
  rcases member with rfl | rfl | rfl
  · exact v13Step2_happens exchange
  · exact v13Step3_happens exchange
  · exact v13Step4_happens exchange

end Exchange

theorem v13_exchange : V13Exchange := by
  constructor
  case parsed =>
    unfold Parses
    decide +kernel
  all_goals
    decide +kernel

/-- In the exchange of the vector the responder agrees with the initiator. -/
theorem signatures_authenticate_v13 :
    ∃ earlier ∈ [v13Step2, v13Step3], ∃ signed,
      earlier.Signs v13Platform signed ∧
        signed.pk = v13Attestation3.pk ∧
          signed.suite = v13Attestation3.suite ∧
            signed.Agrees v13Attestation3 :=
  (signatures_authenticate v13Platform v13_canonical canonicalZcbor_inverts
    V13Genuine v13Steps v13_stored (v13_happened v13_exchange)
    (v13_signaturesGenuine v13_exchange)
    (fun _ leftMember _ rightMember _ _ signs accepts =>
      v13_noCollision v13_exchange (v13_signs v13_exchange leftMember signs)
        ((v13_accepts v13_exchange rightMember accepts).imp And.right
          And.right))).1
    [v13Step2, v13Step3] v13Step4 [] rfl v13Attestation3
    ⟨v13Opened3, v13Ciphertext2, v13_exchange.opened3, rfl,
      v13_hasCiphertext2 v13_exchange, rfl⟩
    (Or.inl rfl)

end UoscoreUedhoc.Edhoc

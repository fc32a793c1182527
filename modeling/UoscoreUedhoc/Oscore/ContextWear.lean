import UoscoreUedhoc.Oscore.AadRoom
import UoscoreUedhoc.Oscore.ResponseNonces
import UoscoreUedhoc.Oscore.MessageParsing
import UoscoreUedhoc.Oscore.OptionValue

/-!
# Contexts wear out

The length of the AAD array and the length of the ID context are both the
content's length and the room for the next content.  No call ever makes either
longer, and `context_update` shortens them before it knows whether the request
is authentic.
-/

namespace UoscoreUedhoc.Oscore

open UoscoreUedhoc
open UoscoreUedhoc.Runs
open Update

/-! ## Wear -/

/-- The later context has at most the room that the earlier one had. -/
structure Worn (before after : Context) : Prop where
  aad : after.rrc.aad.length ≤ before.rrc.aad.length
  idContext : after.cc.idContext.length ≤ before.cc.idContext.length

instance instReflWorn : Std.Refl Worn where
  refl _ := ⟨Nat.le_refl _, Nat.le_refl _⟩

instance instTransWorn : IsTrans Context Worn where
  trans _ _ _ first second :=
    ⟨second.aad.trans first.aad, second.idContext.trans first.idContext⟩

section Wear

variable {platform : Platform}

theorem nonceAndAadUpdate_wears (options : List OCoapOption) :
    Keeps Worn (nonceAndAadUpdate platform options) := by
  intro c
  rw [exec_nonceAndAadUpdate]
  cases createNonce c.rrc.kid c.rrc.piv c.cc.commonIv with
  | error fault =>
      exact refl c
  | ok nonce =>
      by_cases fits :
          (requestAad platform.toCborEncoder c).length ≤ c.rrc.aad.length
      · simp only [if_pos fits]
        exact ⟨fits, Nat.le_refl _⟩
      · simp only [if_neg fits]
        exact ⟨(platform.residue_length _ _).le, Nat.le_refl _⟩

/-- With a nonce, an update leaves the room of the shorter one of the old and
the new AAD, whether the new one fits or not. -/
theorem nonceAndAadUpdate_room {options : List OCoapOption} {c : Context}
    {nonce : Bytes}
    (created : createNonce c.rrc.kid c.rrc.piv c.cc.commonIv = .ok nonce) :
    (exec (nonceAndAadUpdate platform options) c).2.rrc.aad.length =
      min (requestAad platform.toCborEncoder c).length
        c.rrc.aad.length := by
  rw [exec_nonceAndAadUpdate, created]
  by_cases fits :
      (requestAad platform.toCborEncoder c).length ≤ c.rrc.aad.length
  · simp only [if_pos fits]
    exact (Nat.min_eq_left fits).symm
  · simp only [if_neg fits]
    rw [Nat.min_eq_right (Nat.le_of_not_le fits)]
    exact platform.residue_length _ _

/-- A KID context is copied over the ID context only where it fits into it. -/
theorem kidContextUpdate_wears (kidContext : ByteArrayView) :
    Keeps Worn (kidContextUpdate platform kidContext) := by
  refine kidContextUpdate_keeps_of kidContext ?_ ?_ ?_ ?_ ?_
  case refine_2 =>
    intro c idContext shorter
    exact ⟨Nat.le_refl _, shorter⟩
  all_goals
    intro _ _ _
    exact ⟨Nat.le_refl _, Nat.le_refl _⟩

theorem contextUpdate_wears (options : List OCoapOption)
    (piv kidContext : ByteArrayView) :
    Keeps Worn (contextUpdate platform .server options piv kidContext) := by
  unfold contextUpdate serverUpdate
  refine Keeps.bind ?_ fun _ => nonceAndAadUpdate_wears options
  refine Keeps.bind (Keeps.lift _) ?_
  intro newPiv
  refine Keeps.bind
    (Keeps.modify fun _ => ⟨Nat.le_refl _, Nat.le_refl _⟩) ?_
  intro _
  refine Keeps.bind Keeps.get ?_
  intro c
  refine Keeps.bind (Keeps.lift _) ?_
  intro same
  exact Keeps.ite (Keeps.pure _) (kidContextUpdate_wears kidContext)

theorem BuildsRequest.wears {before after : Context}
    (builds : BuildsRequest platform before after) : Worn before after := by
  rcases builds with same | ⟨options, built⟩
  · rw [same]
    exact refl before
  · rw [built, requestOption_context]
    by_cases small : before.sc.senderSeqNum.toNat < 2 ^ 40
    · rw [if_pos small]
      have worn := @nonceAndAadUpdate_wears platform options before.nextRequest
      exact ⟨worn.aad, worn.idContext⟩
    · rw [if_neg small]
      exact ⟨Nat.le_refl _, Nat.le_refl _⟩

/-- No call makes room, whatever it gets and however it ends. -/
theorem callRun_wears {event : CallEvent} (step : callMachine platform event) :
    Worn event.before event.after := by
  cases called : event.input with
  | coap2oscore input capacity =>
      obtain ⟨outcome, ran, _⟩ := callMachine_coap2oscore step called
      have builds :=
        coap2oscore_buildsRequest platform input capacity event.before
      rw [ran] at builds
      exact builds.wears
  | oscore2coap input capacity =>
      have ran := callMachine_oscore2coap step called
      have worn :=
        oscore2coap_keeps_of (@contextUpdate_wears platform)
          (fun _ _ => ⟨Nat.le_refl _, Nat.le_refl _⟩) input capacity
          event.before
      rw [ran] at worn
      exact worn

theorem CallRun.wears {first last : Context} {events : List CallEvent}
    (run : CallRun platform first events last) : Worn first last :=
  run.related fun _ _ => callRun_wears

end Wear

/-! ## Requests that are refused for want of room -/

section Room

variable {platform : Platform} {event : CallEvent} {piv kidContext : Bytes}

/-- The call gets an OSCORE request with these fields, genuine or not. -/
def GetsRequest (event : CallEvent) (piv kidContext : Bytes) : Prop :=
  ∃ input capacity packet option first newPiv newKidContext,
    event.input = .oscore2coap input capacity ∧
      ReachesUpdate event.before input packet option first newPiv
        newKidContext ∧
      piv = newPiv.content ∧ kidContext = newKidContext.content

/-- A call with defined behaviour that does not succeed is refused. -/
theorem refused_of_not_ok (step : callMachine platform event)
    (notOk : ∀ output, event.output ≠ .ok output) :
    ∃ code, event.output = .error (.err code) := by
  cases returned : event.output with
  | ok output =>
      exact absurd returned (notOk output)
  | error fault =>
      cases fault with
      | err code =>
          exact ⟨code, rfl⟩
      | undefinedBehaviour =>
          exact absurd returned step.2

theorem GetsRequest.hasRoom (receives : GetsRequest event piv kidContext)
    (step : callMachine platform event) {output : Option Bytes}
    (accepted : event.output = .ok output) :
    HasRoomFor platform.toCborEncoder event.before
      ⟨event.before.rrc.kid, kidContext, piv⟩ := by
  obtain ⟨input, capacity, packet, option, first, newPiv, newKidContext,
    called, reaches, rfl, rfl⟩ := receives
  obtain ⟨options, ran⟩ :=
    exec_oscore2coap_of_reaches platform capacity reaches
  rw [callMachine_oscore2coap step called] at ran
  cases updated :
      exec (contextUpdate platform .server options newPiv newKidContext)
        event.before with
  | mk outcome between =>
      rw [updated] at ran
      cases outcome with
      | error fault =>
          obtain ⟨failed, _⟩ := Prod.mk.inj ran
          rw [accepted] at failed
          cases failed
      | ok done =>
          exact contextUpdate_hasRoom updated

theorem Encrypts.hasRoom {packet : OCoapPacket}
    (encrypts : Encrypts event packet) (step : callMachine platform event)
    (request : isRequest packet = true) :
    event.before.sc.senderSeqNum.toNat < 2 ^ 40 ∧
      (requestAad platform.toCborEncoder event.before.nextRequest).length ≤
        event.before.rrc.aad.length := by
  obtain ⟨value, sends⟩ := encrypts.sendsOption step request
  obtain ⟨_, _, _, _, _, _, _, _, _, _, _, _, _, valued, _⟩ := sends
  obtain ⟨small, _, _, fits, _⟩ := requestOption_eq_ok.mp valued
  exact ⟨small, fits⟩

/-- A request that is taken over leaves no more room than its AAD takes, even
if it is then refused. -/
theorem TakesOver.room (takes : TakesOver platform event piv kidContext)
    (step : callMachine platform event) :
    event.after.rrc.aad.length ≤
      (aadArray platform.toCborEncoder event.before.cc.aeadAlg
        event.before.rrc.kid piv []).length := by
  obtain ⟨input, capacity, packet, option, first, newPiv, newKidContext,
    between, called, reaches, server, rfl, rfl⟩ := takes
  have ran := callMachine_oscore2coap step called
  have updated := serverUpdate_updated server
  obtain ⟨options, whole⟩ :=
    exec_oscore2coap_of_reaches platform capacity reaches
  have left := @ReachesUpdate.aad platform _ capacity _ _ _ _ _ _ reaches
    options
  have update :
      exec (contextUpdate platform .server options newPiv newKidContext)
          event.before =
        exec (nonceAndAadUpdate platform options) between := by
    unfold contextUpdate
    rw [exec_bind, server]
  rw [ran, update] at left
  rw [ran, update] at whole
  cases created :
      createNonce between.rrc.kid between.rrc.piv between.cc.commonIv with
  | error fault =>
      rw [exec_nonceAndAadUpdate, created] at whole
      obtain ⟨failed, _⟩ := Prod.mk.inj whole
      cases fault with
      | err code =>
          exact absurd created createNonce_ne_err
      | undefinedBehaviour =>
          exact absurd failed step.2
  | ok nonce =>
      have room := @nonceAndAadUpdate_room platform options _ _ created
      unfold requestAad at room
      rw [updated.aeadAlg, updated.kid, updated.piv] at room
      rw [left, room]
      exact Nat.min_le_left _ _

theorem TakesOver.piv_length
    (takes : TakesOver platform event piv kidContext) :
    piv.length ≤ maxPivLen := by
  obtain ⟨_, _, _, _, _, newPiv, _, _, _, reaches, _, rfl, _⟩ := takes
  exact (List.length_take_le _ _).trans reaches.pivFits

theorem GetsRequest.piv_length (receives : GetsRequest event piv kidContext) :
    piv.length ≤ maxPivLen := by
  obtain ⟨_, _, _, _, _, newPiv, _, _, reaches, rfl, _⟩ := receives
  exact (List.length_take_le _ _).trans reaches.pivFits

end Room

/-! ## What one request costs all later ones -/

/-- The room that is left of a context: that for a Partial IV and a KID context
of these lengths. -/
structure Limited (pivLen kidContextLen : Nat) (c : Context) : Prop where
  aeadAlg : c.cc.aeadAlg = .oscoreAesCcm16_64_128
  kid : c.rrc.kid.length ≤ maxKidLen
  aad : c.rrc.aad.length ≤ 7 + c.rrc.kid.length + pivLen
  idContext : c.cc.idContext.length ≤ kidContextLen

section Limits

variable {platform : Platform}
  (canonical : platform.toCborEncoder.IsCanonical)
  {params : OscoreInitParams} {first : Context} {left : List CallEvent}
  {event later : CallEvent} {piv kidContext : Bytes}
  {pivLen kidContextLen : Nat}

include canonical

/-- What a request that is taken over leaves for all contexts after it. -/
theorem TakesOver.limits {c : Context} {middle : List CallEvent}
    (initialised : Initialised platform params first)
    (leftRun : CallRun platform first left event.before)
    (step : callMachine platform event)
    (middleRun : CallRun platform event.after middle c)
    (takes : TakesOver platform event piv kidContext) :
    Limited piv.length kidContext.length c := by
  have before := CallRun.sameParameters leftRun
  have toLater : CallRun platform event.before (event :: middle) c :=
    .cons step middleRun
  have same := CallRun.sameParameters toLater
  have worn := CallRun.wears middleRun
  have aeadAlg := before.aeadAlg.trans initialised.aeadAlg
  have kidFits : event.before.rrc.kid.length ≤ 7 :=
    (CallRun.idsFit leftRun initialised.idsFit).kid
  have pivShort : piv.length ≤ 5 := takes.piv_length
  have room := takes.room step
  rw [aeadAlg, aadArray_length canonical (by omega) (by omega)] at room
  refine ⟨same.aeadAlg.trans aeadAlg, ?_, ?_, ?_⟩
  · rw [same.kid]
    exact kidFits
  · rw [same.kid]
    exact worn.aad.trans room
  · rw [← (takes.nonce step).2.1]
    exact worn.idContext

theorem Limited.receives_refused
    (limited : Limited pivLen kidContextLen later.before)
    (receives : GetsRequest later piv kidContext)
    (step : callMachine platform later)
    (longer : pivLen < piv.length ∨ kidContextLen < kidContext.length) :
    ∃ code, later.output = .error (.err code) := by
  apply refused_of_not_ok step
  intro output accepted
  have hasRoom := receives.hasRoom step accepted
  have kidShort : later.before.rrc.kid.length ≤ 7 := limited.kid
  have pivShort : piv.length ≤ 5 := receives.piv_length
  have aad := limited.aad
  have idContext := limited.idContext
  have needed := hasRoom.aad
  dsimp only at needed
  rw [limited.aeadAlg, aadArray_length canonical (by omega) (by omega)]
    at needed
  rcases longer with longerPiv | longerContext
  · omega
  · rcases hasRoom.kidContext with same | fits
    · dsimp only at same
      rw [same] at longerContext
      omega
    · have shorter := fits.1
      dsimp only at shorter
      omega

/-- The Partial IV of a protected request is within the limits. -/
theorem Limited.encrypts {packet : OCoapPacket}
    (limited : Limited pivLen kidContextLen later.before)
    (step : callMachine platform later) (encrypts : Encrypts later packet)
    (request : isRequest packet = true) :
    (partialIv later.before.sc.senderSeqNum).length ≤ pivLen := by
  obtain ⟨small, needed⟩ := encrypts.hasRoom step request
  have kidShort : later.before.rrc.kid.length ≤ 7 := limited.kid
  have pivShort : (partialIv later.before.sc.senderSeqNum).length ≤ 5 :=
    (partialIv_length small).2
  have aad := limited.aad
  unfold requestAad Context.nextRequest at needed
  dsimp only at needed
  rw [limited.aeadAlg, aadArray_length canonical (by omega) (by omega)]
    at needed
  omega

theorem Limited.request_refused {input : Bytes} {capacity : Nat}
    {packet : OCoapPacket}
    (limited : Limited pivLen kidContextLen later.before)
    (step : callMachine platform later)
    (called : later.input = .coap2oscore input capacity)
    (parsed : buf2coap input = .ok packet)
    (notCopied : isMessagingLayer packet = false)
    (request : isRequest packet = true)
    (longer : pivLen < (partialIv later.before.sc.senderSeqNum).length) :
    ∃ code, later.output = .error (.err code) := by
  apply refused_of_not_ok step
  intro output accepted
  obtain ⟨outcome, _, returned⟩ := callMachine_coap2oscore step called
  cases outcome with
  | error fault =>
      rw [accepted] at returned
      cases returned
  | ok written =>
      have encrypts : Encrypts later packet :=
        ⟨input, capacity, written, called, returned, parsed, notCopied⟩
      have short := limited.encrypts canonical step encrypts request
      omega

end Limits

/-! ## Forged requests -/

section Forgery

open UoscoreUedhoc.Coap

theorem forgedValue_length_lt {kid : Bytes} (short : kid.length ≤ 7)
    (piv : UInt8) : (9 :: piv :: kid).length < valueBound := by
  have bound : valueBound = 65805 := rfl
  simp only [List.length_cons]
  omega

/-- A POST request with an OSCORE option of a one-byte Partial IV, no KID
context and this KID, and one byte in place of a ciphertext. -/
def forgedMessage (kid : Bytes) (piv : UInt8) (short : kid.length ≤ 7) :
    Message where
  type := 0
  code := 2
  mid := 1
  token := []
  options :=
    [ { number := 9
        value := 9 :: piv :: kid
        number_lt := by decide
        value_length_lt := forgedValue_length_lt short piv } ]
  payload := [0]
  type_lt := by decide
  token_length_le := by decide
  ascending := List.pairwise_singleton _ _
  empty := by
    intro isEmpty
    cases isEmpty

theorem pivBits_nine : pivBits 9 = 1 := by
  decide

/-- The parts of the OSCORE option of a forged request. -/
def forgedLayout (kid : Bytes) (piv : UInt8) : OptionLayout where
  first := 9
  piv := [piv]
  kidContext := []
  kid := kid
  pivPresent := Nat.one_pos
  pivFits := Nat.le_of_ble_eq_true rfl
  pivAnnounced := pivBits_nine
  kidContextShort := by decide
  noKidContext _ := rfl
  noKid absent := by cases absent

variable {kid : Bytes} {piv : UInt8}

theorem forgedLayout_bytes : (forgedLayout kid piv).bytes = 9 :: piv :: kid := by
  have noContext : kidContextFlag 9 = 0 := by
    decide
  unfold OptionLayout.bytes forgedLayout kidContextField
  rw [if_pos noContext]
  rfl

/-- No byte of the option is the payload marker, unless it is one of the KID or
the Partial IV. -/
theorem forgedMessage_unmarked (short : kid.length ≤ 7)
    (unmarked : 0xFF ∉ piv :: kid) :
    0xFF ∉ optionBytes
      (Coap.encodeOptions 0 (forgedMessage kid piv short).options) := by
  have head : 0xFF ∉ (EncodedHead.encode 9 (kid.length + 2)).bytes := by
    generalize kid.length = length at short
    interval_cases length <;> decide
  have value : 0xFF ∉ (9 : UInt8) :: piv :: kid := by
    rw [List.mem_cons, not_or]
    exact ⟨by decide, unmarked⟩
  unfold optionBytes forgedMessage
  simp only [Coap.encodeOptions, List.map_cons, List.map_nil,
    List.flatten_cons, List.flatten_nil, List.append_nil,
    EncodedOption.bytes, EncodedOption.encode, List.mem_append, not_or]
  exact ⟨head, value⟩

/-- What the options of a forged request are parsed to. -/
theorem forgedMessage_option (short : kid.length ≤ 7)
    (unmarked : 0xFF ∉ piv :: kid) :
    ∃ packet option rest,
      buf2coap (forgedMessage kid piv short).bytes = .ok packet ∧
        isRequest packet = true ∧ HasOscoreOption packet option ∧
        option.value = (forgedLayout kid piv).bytes ++ rest ∧
        (forgedLayout kid piv).bytes.length = option.len.toNat := by
  have lengths :
      ∀ option ∈ Coap.encodeOptions 0 (forgedMessage kid piv short).options,
        option.head.length < 256 := by
    apply encodeOptions_lengths_lt
    intro option member
    rw [List.mem_singleton.mp member]
    simp only [List.length_cons]
    omega
  have nonempty : bodyBytes (forgedMessage kid piv short) ≠ [] :=
    bodyBytes_ne_nil_iff.mpr (Or.inl (List.cons_ne_nil _ _))
  obtain ⟨walked, payload⟩ :=
    region_walked (Nat.le_of_ble_eq_true rfl) lengths
      (Or.inl (forgedMessage_unmarked short unmarked))
  have parsed := buf2coap_message nonempty
  rw [walked, outcome_ok_bind, payload] at parsed
  have bound := forgedValue_length_lt short piv
  have encodedLength :
      (EncodedHead.encode 9 (kid.length + 2)).length = kid.length + 2 :=
    EncodedHead.length_encode (by
      simp only [List.length_cons] at bound
      exact bound)
  have len :
      buf2optionsLen.len (EncodedHead.encode 9 (kid.length + 2)) =
        UInt8.ofNat (kid.length + 2) := by
    rw [buf2optionsLen_len, encodedLength]
  have lenToNat :
      (buf2optionsLen.len (EncodedHead.encode 9 (kid.length + 2))).toNat =
        kid.length + 2 := by
    rw [len, UInt8.toNat_ofNat']
    omega
  have positive :
      buf2optionsLen.len (EncodedHead.encode 9 (kid.length + 2)) ≠ 0 := by
    intro zero
    rw [zero] at lenToNat
    cases lenToNat
  have number :
      (0 : UInt8) + buf2optionsDelta.delta (EncodedHead.encode 9 (kid.length + 2)) =
        coapOptionOscore := by
    rw [buf2optionsDelta_delta, EncodedHead.delta_encode (by decide)]
    rfl
  have request : decide (codeClassMask &&& 2 = requestClass) = true := by
    decide
  rw [forgedLayout_bytes]
  refine
    ⟨_, _, (forgedMessage kid piv short).payloadBytes, parsed, request,
      ⟨number, [], [], rfl, ?_⟩, ?_, ?_⟩
  · intro other member
    cases member
  · exact if_neg positive
  · exact lenToNat.symm

/-- A forged request gets as far as `context_update` wherever its KID is the
recipient ID. -/
theorem forgedMessage_reaches {c : Context} (short : kid.length ≤ 7)
    (unmarked : 0xFF ∉ piv :: kid) (recipientId : c.rc.recipientId = kid) :
    ∃ packet option newPiv newKidContext,
      ReachesUpdate c (forgedMessage kid piv short).bytes packet option piv
        newPiv newKidContext ∧
      IsArrayOf [piv] newPiv ∧ IsArrayOf [] newKidContext := by
  obtain ⟨packet, option, rest, parsed, request, has, value, length⟩ :=
    forgedMessage_option short unmarked
  obtain ⟨out, outParsed, _, carries⟩ :=
    oscoreOptionParser_layout has (forgedLayout kid piv) value length
  obtain ⟨newPiv, pivRead, isPiv⟩ := carries.piv
  obtain ⟨newKidContext, contextRead, isContext⟩ := carries.kidContext
  obtain ⟨newKid, kidRead, isKid⟩ := carries.kid
  have sameKid : arrayEquals c.rc.recipientId newKid = .ok true := by
    rw [arrayEquals_eq_true, recipientId]
    exact isKid
  have first := pivFirstByte_of_content pivRead isPiv.2
  exact
    ⟨packet, out, newPiv, newKidContext,
      ⟨parsed, outParsed, request,
        ⟨⟨newKid, kidRead, sameKid⟩, first, pivRead, contextRead⟩⟩,
      isPiv, isContext⟩

/-- Where its keys for the empty ID context can be derived, a server takes over
a request that anybody can make from its recipient ID. -/
theorem forgedMessage_takenOver {platform : Platform}
    {hkdf : Bytes → Bytes → Bytes → Nat → Bytes}
    (total : HkdfTotal platform hkdf)
    (lengths : platform.toCborEncoder.LengthsMonotone) {event : CallEvent}
    {capacity : Nat} (short : kid.length ≤ 7) (unmarked : 0xFF ∉ piv :: kid)
    (keys : KeysDerived platform event.before)
    (recipientId : event.before.rc.recipientId = kid)
    (called :
      event.input =
        .oscore2coap (forgedMessage kid piv short).bytes capacity) :
    TakesOver platform event [piv] [] := by
  obtain ⟨packet, option, newPiv, newKidContext, reaches, isPiv, isContext⟩ :=
    forgedMessage_reaches short unmarked recipientId
  obtain ⟨commonIv, senderKey, recipientKey, iv, sender, recipient⟩ :=
    @KeysDerived.shorter platform hkdf total lengths _ keys [] (Nat.zero_le _)
  have congr :=
    @derive_congr platform
      { event.before.cc with idContext := [], commonIv }
      { event.before.cc with idContext := [] } rfl rfl rfl rfl rfl
  obtain ⟨after, updated⟩ :=
    @serverUpdate_total platform newPiv newKidContext event.before
      reaches.pivFits isPiv.1 isContext.1
      (by
        rw [isContext.2]
        exact Or.inr ⟨Nat.zero_le _, Nat.zero_le _⟩)
      (by
        rw [isContext.2]
        exact
          ⟨commonIv, senderKey, recipientKey, iv,
            (congr _ _ _).symm.trans sender,
            (congr _ _ _).symm.trans recipient⟩)
  exact
    ⟨_, capacity, packet, option, piv, newPiv, newKidContext, after, called,
      reaches, updated, isPiv.2.symm, isContext.2.symm⟩

end Forgery

/-- A request whose Partial IV and KID context are taken over limits all that
follows on its context: whatever is called in between, a request with a longer
Partial IV or a longer KID context is refused, and so is the protection of a
request with a longer Partial IV.  A server takes over a request with one byte
and no KID context that anybody can make. -/
theorem takenOver_limitsRequests (platform : Platform)
    (canonical : platform.toCborEncoder.IsCanonical)
    (params : OscoreInitParams) (first last : Context)
    (left middle right : List CallEvent) (event later : CallEvent)
    (initialised : Initialised platform params first)
    (run : CallRun platform first
      (left ++ event :: (middle ++ later :: right)) last) :
    (∀ piv kidContext, TakesOver platform event piv kidContext →
      (∀ laterPiv laterKidContext,
        GetsRequest later laterPiv laterKidContext →
        piv.length < laterPiv.length ∨
          kidContext.length < laterKidContext.length →
        ∃ code, later.output = .error (.err code)) ∧
      (∀ input capacity packet,
        later.input = .coap2oscore input capacity →
        buf2coap input = .ok packet →
        isMessagingLayer packet = false →
        isRequest packet = true →
        piv.length < (partialIv later.before.sc.senderSeqNum).length →
        ∃ code, later.output = .error (.err code))) ∧
    (∀ hkdf, HkdfTotal platform hkdf → params.devType = .server →
      ∀ piv capacity (short : params.recipientId.length ≤ 7),
        0xFF ∉ piv :: params.recipientId →
        event.input =
          .oscore2coap (forgedMessage params.recipientId piv short).bytes
            capacity →
        TakesOver platform event [piv] []) := by
  obtain ⟨leftRun, step, rest⟩ := Run.split_iff.mp run
  obtain ⟨middleRun, laterStep, _⟩ := Run.split_iff.mp rest
  constructor
  · intro piv kidContext takes
    have limits :=
      takes.limits canonical initialised leftRun step middleRun
    constructor
    · intro laterPiv laterKidContext receives longer
      exact limits.receives_refused canonical receives laterStep longer
    · intro input capacity packet called parsed notCopied request longer
      exact
        limits.request_refused canonical laterStep called parsed notCopied
          request longer
  · intro hkdf total isServer piv capacity short unmarked called
    have keys :=
      CallRun.keysDerived total canonical.lengthsMonotone leftRun
        (initialised_keysDerived initialised)
    have has :=
      initialised.hasParameters.of_same (CallRun.sameParameters leftRun)
    exact
      forgedMessage_takenOver total canonical.lengthsMonotone short unmarked
        keys has.recipientId called

/-! ## The server of test vector T1 -/

/-- The platform of test vector T1 with a derivation that always succeeds. -/
private def t1Deriving : Platform :=
  t1Platform.withTotalHkdf

private def t1AfterForged : CallEvent :=
  callEvent t1Deriving t1Server
    (.oscore2coap (forgedMessage [] 5 (Nat.zero_le 7)).bytes 64)

/-- A request with a Partial IV of two bytes. -/
private def t1TwoBytePiv : Bytes :=
  [0x40, 2, 0, 2, 0x93, 0x0A, 1, 1, 0xFF, 0]

private def t1Refused : CallEvent :=
  callEvent t1Deriving t1AfterForged.after
    (.oscore2coap t1TwoBytePiv 64)

/-- After one forged request, the server of test vector T1 refuses a request
with a Partial IV of two bytes. -/
theorem takenOver_limits_t1 :
    TakesOver t1Deriving t1AfterForged [5] [] ∧
      ∃ code, t1Refused.output = .error (.err code) := by
  have run :
      CallRun t1Deriving t1Server [t1AfterForged, t1Refused]
        t1Refused.after :=
    .cons (callEvent_step (by decide +kernel))
      (.cons (callEvent_step (by decide +kernel)) (.nil _))
  have limited :=
    takenOver_limitsRequests t1Deriving canonicalCbor_isCanonical
      t1ServerParams t1Server t1Refused.after [] [] [] t1AfterForged
      t1Refused ⟨zeroBuffers, rfl⟩ run
  have takes :=
    limited.2 t1Platform.hkdfOrZeros (fun _ _ _ _ => rfl) rfl 5 64 (Nat.zero_le 7)
      (by decide) rfl
  have receives : GetsRequest t1Refused [1, 1] [] :=
    ⟨t1TwoBytePiv, 64, _, _, 1, _, _, rfl,
      ⟨rfl, rfl, rfl, ⟨⟨_, rfl, by decide +kernel⟩, rfl, rfl, rfl⟩⟩, rfl, rfl⟩
  exact
    ⟨takes, (limited.1 [5] [] takes).1 [1, 1] [] receives (Or.inl (by decide))⟩

end UoscoreUedhoc.Oscore

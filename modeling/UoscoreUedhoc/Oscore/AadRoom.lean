import UoscoreUedhoc.Oscore.RequestBuffers
import UoscoreUedhoc.Oscore.SequenceNumbers

/-!
# Room for the AAD

The length of the AAD array of the request-response context is at once the
capacity for the next AAD and the length of the last one, so that no AAD can be
longer than the one before it.  The `Enc_structure` around the AAD has to fit
into `MAX_AAD_LEN` bytes as well.
-/

namespace UoscoreUedhoc.Oscore

open UoscoreUedhoc
open UoscoreUedhoc.PaddedDigits
open UoscoreUedhoc.Runs
open Update

/-! ## Runs of a client -/

theorem partialIv_length_le_one_iff {ssn : UInt64} :
    (partialIv ssn).length ≤ 1 ↔ ssn.toNat < 256 := by
  have length := @trim_length_le_iff (ssnBytes ssn) 1
  rw [digitsValue_ssnBytes] at length
  unfold partialIv
  by_cases zero : ssn = 0
  · rw [if_pos zero, zero]
    decide
  · rw [if_neg zero]
    exact length

/-- What is left of the AAD array of a client that only protects: all of it
before the first request, and the length of the AAD of a one-byte Partial IV
from then on. -/
structure ClientRoom (c : Context) : Prop where
  aeadAlg : c.cc.aeadAlg = .oscoreAesCcm16_64_128
  kid : c.rrc.kid.length ≤ maxKidLen
  commonIv : c.cc.commonIv.length ≤ nonceLen
  aad :
    (c.sc.senderSeqNum = 0 ∧ c.rrc.aad.length = maxAadLen) ∨
      c.rrc.aad.length = 8 + c.rrc.kid.length

theorem Initialised.aeadAlg {platform : Platform} {params : OscoreInitParams}
    {c : Context} (initialised : Initialised platform params c) :
    c.cc.aeadAlg = .oscoreAesCcm16_64_128 := by
  obtain ⟨buffers, done⟩ := initialised
  have initial := oscoreContextInit_initial done
  rw [initial.aeadAlg]
  by_contra other
  unfold oscoreContextInit at done
  rw [if_pos other] at done
  cases done

theorem Initialised.clientRoom {platform : Platform}
    {params : OscoreInitParams} {c : Context}
    (initialised : Initialised platform params c) : ClientRoom c := by
  have aeadAlg := initialised.aeadAlg
  have kid := initialised.idsFit.kid
  have commonIv := initialised.commonIv_length
  obtain ⟨buffers, done⟩ := initialised
  have initial := oscoreContextInit_initial done
  exact
    ⟨aeadAlg, kid, commonIv.le,
      Or.inl ⟨initial.senderSeqNum, initial.aad_length⟩⟩

section Client

variable {platform : Platform}
  (canonical : platform.toCborEncoder.IsCanonical)

include canonical

theorem ClientRoom.requestAad_length {c : Context} (room : ClientRoom c)
    (small : c.sc.senderSeqNum.toNat < 2 ^ 40) :
    (requestAad platform.toCborEncoder c.nextRequest).length =
      7 + c.rrc.kid.length + (partialIv c.sc.senderSeqNum).length := by
  obtain ⟨_, pivShort⟩ := partialIv_length small
  have pivBound : (partialIv c.sc.senderSeqNum).length ≤ 5 := pivShort
  have kidBound : c.rrc.kid.length ≤ 7 := room.kid
  unfold requestAad Context.nextRequest
  dsimp only
  rw [room.aeadAlg]
  exact aadArray_length canonical (by omega) (by omega)

/-- The AAD of a request fits exactly when its Partial IV has one byte. -/
theorem ClientRoom.fits_iff {c : Context} (room : ClientRoom c)
    (small : c.sc.senderSeqNum.toNat < 2 ^ 40) :
    (requestAad platform.toCborEncoder c.nextRequest).length ≤
        c.rrc.aad.length ↔ c.sc.senderSeqNum.toNat < 256 := by
  obtain ⟨present, pivShort⟩ := partialIv_length small
  have pivBound : (partialIv c.sc.senderSeqNum).length ≤ 5 := pivShort
  have kidBound : c.rrc.kid.length ≤ 7 := room.kid
  have size : maxAadLen = 30 := rfl
  rw [room.requestAad_length canonical small, ← partialIv_length_le_one_iff]
  rcases room.aad with first | later
  · obtain ⟨zero, all⟩ := first
    have one : (partialIv c.sc.senderSeqNum).length = 1 := by
      rw [zero]
      rfl
    omega
  · omega

theorem ClientRoom.requestOption {c : Context} (room : ClientRoom c)
    (options : List OCoapOption) :
    ClientRoom (exec (requestOption platform options) c).2 := by
  rw [requestOption_context]
  by_cases small : c.sc.senderSeqNum.toNat < 2 ^ 40
  · obtain ⟨_, pivShort⟩ := partialIv_length small
    obtain ⟨nonce, created, _⟩ :=
      createNonce_total pivShort room.kid room.commonIv
    have length := room.requestAad_length canonical small
    have fitsIff := room.fits_iff canonical small
    have createdNext :
        createNonce c.nextRequest.rrc.kid c.nextRequest.rrc.piv
          c.nextRequest.cc.commonIv = .ok nonce :=
      created
    rw [if_pos small, exec_nonceAndAadUpdate, createdNext]
    dsimp only
    by_cases fits :
        (requestAad platform.toCborEncoder c.nextRequest).length ≤
          c.nextRequest.rrc.aad.length
    · rw [if_pos fits]
      refine ⟨room.aeadAlg, room.kid, room.commonIv, Or.inr ?_⟩
      have short := partialIv_length_le_one_iff.mpr (fitsIff.mp fits)
      obtain ⟨present, _⟩ := partialIv_length small
      change (requestAad platform.toCborEncoder c.nextRequest).length =
        8 + c.rrc.kid.length
      omega
    · rw [if_neg fits]
      refine ⟨room.aeadAlg, room.kid, room.commonIv, Or.inr ?_⟩
      rcases room.aad with first | later
      · refine absurd (fitsIff.mpr ?_) fits
        rw [first.1]
        decide
      · exact (platform.residue_length _ _).trans later
  · rw [if_neg small]
    refine ⟨room.aeadAlg, room.kid, room.commonIv, ?_⟩
    rcases room.aad with first | later
    · refine absurd ?_ small
      rw [first.1]
      decide
    · exact Or.inr later

theorem ClientRoom.call {event : CallEvent}
    (room : ClientRoom event.before) (step : callMachine platform event)
    (protects : ∃ input capacity, event.input = .coap2oscore input capacity) :
    ClientRoom event.after := by
  obtain ⟨input, capacity, called⟩ := protects
  obtain ⟨outcome, ran, _⟩ := callMachine_coap2oscore step called
  have builds :=
    coap2oscore_buildsRequest platform input capacity event.before
  rw [ran] at builds
  dsimp only at builds
  rcases builds with same | ⟨options, built⟩
  · rw [same]
    exact room
  · rw [built]
    exact room.requestOption canonical options

/-- A client that only protects protects a fitting request exactly when its
sequence number has one byte, the sender ID at most six, and the plaintext is
counted right. -/
theorem CallRun.protected_iff (total : AeadTotal platform)
    {params : OscoreInitParams} {first last : Context}
    {events : List CallEvent} {event : CallEvent} {input : Bytes}
    {capacity : Nat} {packet : OCoapPacket} {options : List OCoapOption}
    (isClient : params.devType = .client)
    (initialised : Initialised platform params first)
    (run : CallRun platform first events last)
    (protects : ∀ other ∈ events, ∃ input capacity,
      other.input = .coap2oscore input capacity)
    (member : event ∈ events) (called : event.input = .coap2oscore input capacity)
    (parsed : buf2coap input = .ok packet)
    (notCopied : isMessagingLayer packet = false)
    (request : isRequest packet = true)
    (isOptions : packet.options = some options)
    (fits : FitsBuffers packet options capacity)
    (small : event.before.sc.senderSeqNum.toNat < 2 ^ 40) :
    (∃ output, event.output = .ok (some output)) ↔
      event.before.sc.senderSeqNum.toNat < 256 ∧
        params.senderId.length ≤ 6 ∧
        CountedRight (euOptionsExtract 0 0 0 options).eOptionsLen
          (euOptionsExtract 0 0 0 options).eOptions packet.payloadLen := by
  have room : ClientRoom event.before := by
    refine run.invariant_before initialised.clientRoom ?_ member
    intro other otherMember step before
    exact before.call canonical step (protects other otherMember)
  obtain ⟨left, right, split⟩ := List.append_of_mem member
  rw [split] at run
  obtain ⟨leftRun, step, _⟩ := Run.split_iff.mp run
  have fit := CallRun.idsFit leftRun initialised.idsFit
  have kid : event.before.rrc.kid = params.senderId := by
    have same := CallRun.sameParameters leftRun
    rw [same.kid, initialised.hasParameters.kid]
    unfold OscoreInitParams.clientId
    rw [isClient]
  have length := room.requestAad_length canonical small
  have exactly :=
    fits.protected_iff canonical total fit room.commonIv small parsed notCopied
      request isOptions
  rw [room.fits_iff canonical small, length, kid] at exactly
  obtain ⟨outcome, ran, returned⟩ := callMachine_coap2oscore step called
  have outputs :
      (∃ output, event.output = .ok (some output)) ↔
        ∃ output,
          (exec (coap2oscore platform input capacity) event.before).1 =
            .ok output := by
    rw [ran, returned]
    cases outcome with
    | error fault =>
        simp [Except.map]
    | ok output =>
        simp [Except.map]
  rw [outputs, exactly]
  obtain ⟨present, _⟩ := partialIv_length small
  constructor
  · intro conditions
    obtain ⟨oneByte, short, countedRight⟩ := conditions
    exact ⟨oneByte, by omega, countedRight⟩
  · intro conditions
    obtain ⟨oneByte, short, countedRight⟩ := conditions
    have one := partialIv_length_le_one_iff.mpr oneByte
    exact ⟨oneByte, by omega, countedRight⟩

end Client

/-! ## Runs of a server -/

section Server

variable {platform : Platform} {params : OscoreInitParams}

/-- `context_update` succeeds for the request of the call, with this Partial
IV in the AAD. -/
def BuildsAad (platform : Platform) (event : CallEvent) (piv : Bytes) : Prop :=
  ∃ input capacity packet option options first pivView kidContext after,
    event.input = .oscore2coap input capacity ∧
      ReachesUpdate event.before input packet option first pivView
        kidContext ∧
      packet.options = some options ∧
      exec (contextUpdate platform .server options pivView kidContext)
        event.before = (.ok (), after) ∧
      piv = pivView.content

theorem serverUpdate_aad (newPiv newKidContext : ByteArrayView) (aad : Bytes) :
    Keeps (Preserves fun c : Context => c.rrc.aad = aad)
      (serverUpdate platform newPiv newKidContext) := by
  unfold serverUpdate
  refine Keeps.bind (Keeps.lift _) ?_
  intro piv
  refine Keeps.bind (Keeps.modify fun _ same => same) ?_
  intro _
  refine Keeps.bind Keeps.get ?_
  intro c
  refine Keeps.bind (Keeps.lift _) ?_
  intro same
  refine Keeps.ite (Keeps.pure _) ?_
  refine (kidContextUpdate_keeps platform newKidContext).mono ?_
  intro before after kept isAad
  exact kept.aad.trans isAad

/-- A failing update leaves the room for the AAD as it is. -/
theorem contextUpdate_error_aad {options : List OCoapOption}
    {piv kidContext : ByteArrayView} {c after : Context} {fault : Fault}
    (failed :
      exec (contextUpdate platform .server options piv kidContext) c =
        (.error fault, after)) :
    after.rrc.aad.length = c.rrc.aad.length := by
  have kept := @serverUpdate_aad platform piv kidContext c.rrc.aad c rfl
  unfold contextUpdate at failed
  rw [exec_bind_eq_error] at failed
  rcases failed with failed | ⟨_, between, updated, failed⟩
  · rw [failed] at kept
    rw [kept]
  · rw [updated] at kept
    dsimp only at kept
    rw [exec_nonceAndAadUpdate] at failed
    rw [← kept]
    split at failed
    · obtain ⟨_, rfl⟩ := Prod.mk.inj failed
      rfl
    · dsimp only at failed
      split at failed
      · cases failed
      · obtain ⟨_, rfl⟩ := Prod.mk.inj failed
        exact platform.residue_length _ _

/-- There are no class I options, so that the options do not matter. -/
theorem contextUpdate_options (left right : List OCoapOption)
    (piv kidContext : ByteArrayView) (c : Context) :
    exec (contextUpdate platform .server left piv kidContext) c =
      exec (contextUpdate platform .server right piv kidContext) c := by
  unfold contextUpdate
  rw [exec_bind, exec_bind]
  obtain ⟨outcome, between⟩ := exec (serverUpdate platform piv kidContext) c
  cases outcome with
  | error fault =>
      rfl
  | ok done =>
      dsimp only
      rw [exec_nonceAndAadUpdate, exec_nonceAndAadUpdate]

/-- The AAD of a genuine request is built with its own Partial IV. -/
theorem BuildsAad.of_genuine {event : CallEvent} {other input : Bytes}
    {capacity : Nat} {options : List OCoapOption}
    {piv kidContext : ByteArrayView} {client : Context}
    (built : BuildsAad platform event other)
    (called : event.input = .oscore2coap input capacity)
    (genuine : GenuineRequest platform params event.before input options piv
      kidContext client) :
    other = piv.content ∧ ∃ after,
      exec (contextUpdate platform .server options piv kidContext)
        event.before = (.ok (), after) := by
  obtain ⟨packet, option, first, reaches, _⟩ := genuine.reaches
  obtain ⟨_, _, _, _, others, _, _, _, after, received, otherReaches, _,
    updated, rfl⟩ := built
  rw [called] at received
  cases received
  obtain ⟨_, _, rfl, rfl⟩ := reaches.unique otherReaches
  rw [contextUpdate_options others options] at updated
  exact ⟨rfl, after, updated⟩

theorem contextUpdate_ok_aad {options : List OCoapOption}
    {piv kidContext : ByteArrayView} {c after : Context} {done : Unit}
    (updated :
      exec (contextUpdate platform .server options piv kidContext) c =
        (.ok done, after)) :
    after.rrc.aad =
      aadArray platform.toCborEncoder c.cc.aeadAlg c.rrc.kid piv.content
        [] := by
  obtain ⟨between, nonce, server, _, _, rfl⟩ :=
    contextUpdate_server_eq_ok.mp updated
  have taken := serverUpdate_updated server
  change requestAad platform.toCborEncoder between = _
  unfold requestAad
  rw [taken.aeadAlg, taken.kid, taken.piv]

/-- A request leaves the AAD as `context_update` leaves it. -/
theorem ReachesUpdate.aad {input : Bytes} (capacity : Nat) {c : Context}
    {packet : OCoapPacket} {option : CompressedOscoreOption} {first : UInt8}
    {piv kidContext : ByteArrayView}
    (reaches : ReachesUpdate c input packet option first piv kidContext)
    (options : List OCoapOption) :
    (exec (oscore2coap platform input capacity) c).2.rrc.aad =
      (exec (contextUpdate platform .server options piv kidContext)
        c).2.rrc.aad := by
  obtain ⟨others, ran⟩ :=
    exec_oscore2coap_of_reaches platform capacity reaches
  rw [ran, contextUpdate_options options others]
  generalize exec (contextUpdate platform .server others piv kidContext) c =
    step
  obtain ⟨outcome, between⟩ := step
  cases outcome with
  | error fault =>
      rfl
  | ok done =>
      rcases afterUpdate_context platform packet first capacity between with
        same | recorded
      · exact congrArg (fun after => after.rrc.aad) same
      · exact congrArg (fun after => after.rrc.aad) recorded

/-- The call receives a genuine request or protects a response. -/
def Answers (platform : Platform) (params : OscoreInitParams)
    (event : CallEvent) : Prop :=
  (∃ input capacity, event.input = .coap2oscore input capacity ∧
    ∀ packet, buf2coap input = .ok packet →
      isRequest packet = true → isMessagingLayer packet = true) ∨
    ∃ input capacity options piv kidContext client,
      event.input = .oscore2coap input capacity ∧
        GenuineRequest platform params event.before input options piv
          kidContext client

theorem Answers.serves {event : CallEvent}
    (answers : Answers platform params event) :
    Serves platform params event := by
  rcases answers with ⟨input, capacity, called, _⟩ | receives
  · exact Or.inl ⟨input, capacity, called⟩
  · exact Or.inr receives

/-- The room for the AAD of a server is that of the shortest Partial IV it has
built an AAD with. -/
structure ServerRoom (platform : Platform) (params : OscoreInitParams)
    (past : List CallEvent) (c : Context) : Prop where
  keys : ServerKeys platform params c
  aeadAlg : c.cc.aeadAlg = .oscoreAesCcm16_64_128
  room : ∀ length, length ≤ maxPivLen →
    (7 + c.rrc.kid.length + length ≤ c.rrc.aad.length ↔
      ∀ event ∈ past, ∀ piv, BuildsAad platform event piv →
        length ≤ piv.length)

theorem Initialised.serverRoom {c : Context}
    (initialised : Initialised platform params c) :
    ServerRoom platform params [] c := by
  refine
    ⟨⟨initialised.hasParameters, initialised_keysDerived initialised⟩,
      initialised.aeadAlg, ?_⟩
  intro length short
  have kid : c.rrc.kid.length ≤ 7 := initialised.idsFit.kid
  have pivBound : length ≤ 5 := short
  obtain ⟨buffers, done⟩ := initialised
  have all : c.rrc.aad.length = 30 := (oscoreContextInit_initial done).aad_length
  constructor
  · intro _ event member
    cases member
  · intro _
    omega

/-- A call that builds no AAD leaves the room as it is. -/
theorem ServerRoom.unbuilt {past : List CallEvent} {event : CallEvent}
    (room : ServerRoom platform params past event.before)
    (step : callMachine platform event)
    (keys : ServerKeys platform params event.after)
    (unbuilt : ∀ piv, ¬ BuildsAad platform event piv)
    (same : event.after.rrc.aad.length = event.before.rrc.aad.length) :
    ServerRoom platform params (past ++ [event]) event.after := by
  have kept := CallRun.sameParameters (.cons step (.nil _))
  refine ⟨keys, kept.aeadAlg.trans room.aeadAlg, ?_⟩
  intro length short
  rw [same, kept.kid, room.room length short]
  constructor
  · intro all other member piv built
    rcases List.mem_append.mp member with earlier | last
    · exact all other earlier piv built
    · rw [List.mem_singleton.mp last] at built
      exact absurd built (unbuilt piv)
  · intro all other member
    exact all other (List.mem_append_left _ member)

/-- A call that builds an AAD leaves room for Partial IVs up to that one. -/
theorem ServerRoom.built {past : List CallEvent} {event : CallEvent}
    {piv : Bytes} (room : ServerRoom platform params past event.before)
    (step : callMachine platform event)
    (keys : ServerKeys platform params event.after)
    (built : BuildsAad platform event piv)
    (unique : ∀ other, BuildsAad platform event other → other = piv)
    (pivShort : piv.length ≤ maxPivLen)
    (fits : 7 + event.before.rrc.kid.length + piv.length ≤
      event.before.rrc.aad.length)
    (aad : event.after.rrc.aad.length =
      7 + event.before.rrc.kid.length + piv.length) :
    ServerRoom platform params (past ++ [event]) event.after := by
  have kept := CallRun.sameParameters (.cons step (.nil _))
  have earlierLonger := (room.room piv.length pivShort).mp fits
  refine ⟨keys, kept.aeadAlg.trans room.aeadAlg, ?_⟩
  intro length short
  rw [aad, kept.kid]
  constructor
  · intro less other member otherPiv otherBuilt
    rcases List.mem_append.mp member with earlier | last
    · have longer := earlierLonger other earlier otherPiv otherBuilt
      omega
    · rw [List.mem_singleton.mp last] at otherBuilt
      rw [unique otherPiv otherBuilt]
      omega
  · intro all
    have less := all event (by simp) piv built
    omega

variable (canonical : platform.toCborEncoder.IsCanonical)

include canonical

theorem ServerRoom.hasRoom_iff {past : List CallEvent} {c : Context}
    (room : ServerRoom platform params past c) {piv kidContext : ByteArrayView}
    (pivShort : piv.content.length ≤ maxPivLen) :
    HasRoomFor platform.toCborEncoder c (fieldsIdentity c piv kidContext) ↔
      (∀ event ∈ past, ∀ earlier, BuildsAad platform event earlier →
        piv.content.length ≤ earlier.length) ∧
        (kidContext.content = c.cc.idContext ∨
          (kidContext.content.length ≤ c.cc.idContext.length ∧
            kidContext.content.length ≤ maxKidContextLen)) := by
  have kidShort : c.rrc.kid.length ≤ 7 := room.keys.has.kid_length
  have pivBound : piv.content.length ≤ 5 := pivShort
  have length :=
    @aadArray_length platform.toCborEncoder canonical c.rrc.kid piv.content
      (by omega) (by omega)
  rw [← room.room _ pivShort, ← length]
  constructor
  · intro hasRoom
    have aad := hasRoom.aad
    rw [room.aeadAlg] at aad
    exact ⟨aad, hasRoom.kidContext⟩
  · intro conditions
    refine ⟨?_, conditions.2⟩
    rw [room.aeadAlg]
    exact conditions.1

theorem ServerRoom.call {past : List CallEvent} {event : CallEvent}
    (room : ServerRoom platform params past event.before)
    (step : callMachine platform event)
    (answers : Answers platform params event) :
    ServerRoom platform params (past ++ [event]) event.after := by
  have keys := answers.serves.keepsKeys step room.keys
  rcases answers with ⟨input, capacity, called, response⟩ |
    ⟨input, capacity, options, piv, kidContext, client, called, genuine⟩
  · obtain ⟨outcome, ran, _⟩ := callMachine_coap2oscore step called
    have same := @coap2oscore_of_not_request platform input capacity
      event.before response
    rw [ran] at same
    dsimp only at same
    refine room.unbuilt step keys ?_ ?_
    · intro piv built
      obtain ⟨_, _, _, _, _, _, _, _, _, received, _⟩ := built
      rw [called] at received
      cases received
    · rw [same]
  · obtain ⟨packet, option, first, reaches, isOptions⟩ := genuine.reaches
    have ran := callMachine_oscore2coap step called
    have aad := @ReachesUpdate.aad platform _ capacity _ _ _ _ _ _ reaches
      options
    rw [ran] at aad
    dsimp only at aad
    cases updated :
        exec (contextUpdate platform .server options piv kidContext)
          event.before with
    | mk outcome between =>
        rw [updated] at aad
        cases outcome with
        | error fault =>
            refine room.unbuilt step keys ?_ ?_
            · intro other built
              obtain ⟨_, after, succeeded⟩ := built.of_genuine called genuine
              rw [updated] at succeeded
              cases succeeded
            · rw [aad]
              exact contextUpdate_error_aad updated
        | ok done =>
            have kidShort : event.before.rrc.kid.length ≤ 7 :=
              room.keys.has.kid_length
            have pivShort : piv.content.length ≤ 5 := by
              rw [ByteArrayView.content_length genuine.piv_inBounds]
              exact reaches.pivFits
            have length :=
              @aadArray_length platform.toCborEncoder canonical
                event.before.rrc.kid piv.content (by omega) (by omega)
            have fits := (contextUpdate_hasRoom updated).aad
            have isAad := contextUpdate_ok_aad updated
            rw [room.aeadAlg] at fits isAad
            refine
              room.built step keys
                ⟨input, capacity, packet, option, options, first, piv,
                  kidContext, between, called, reaches, isOptions, updated,
                  rfl⟩
                (fun other built => (built.of_genuine called genuine).1)
                pivShort ?_ ?_
            · rw [← length]
              exact fits
            · rw [aad, isAad, length]

end Server

/-- In every run of a client that only protects, the requests with a two-byte
sequence number or a seven-byte sender ID and those whose plaintext is counted
wrong are refused, and no other; in every run of a server, its AAD is built for
a genuine request unless its KID context does not fit or an earlier Partial IV
was shorter. -/
theorem request_protected_iff (platform : Platform)
    (canonical : platform.toCborEncoder.IsCanonical)
    (total : AeadTotal platform) (params : OscoreInitParams)
    (first last : Context) (events : List CallEvent)
    (initialised : Initialised platform params first)
    (run : CallRun platform first events last) :
    (params.devType = .client →
      (∀ event ∈ events, ∃ input capacity,
        event.input = .coap2oscore input capacity) →
      ∀ event ∈ events, ∀ input capacity packet options,
        event.input = .coap2oscore input capacity →
        buf2coap input = .ok packet →
        isMessagingLayer packet = false →
        isRequest packet = true →
        packet.options = some options →
        FitsBuffers packet options capacity →
        event.before.sc.senderSeqNum.toNat < 2 ^ 40 →
        ((∃ output, event.output = .ok (some output)) ↔
          event.before.sc.senderSeqNum.toNat < 256 ∧
            params.senderId.length ≤ 6 ∧
            CountedRight (euOptionsExtract 0 0 0 options).eOptionsLen
              (euOptionsExtract 0 0 0 options).eOptions
              packet.payloadLen)) ∧
    ((∀ event ∈ events, Answers platform params event) →
      ∀ past event rest, events = past ++ event :: rest →
      ∀ input capacity options piv kidContext client,
        event.input = .oscore2coap input capacity →
        GenuineRequest platform params event.before input options piv
          kidContext client →
        ((∃ after,
          exec (contextUpdate platform .server options piv kidContext)
            event.before = (.ok (), after)) ↔
          (∀ earlier ∈ past, ∀ other, BuildsAad platform earlier other →
            piv.content.length ≤ other.length) ∧
            (kidContext.content = event.before.cc.idContext ∨
              (kidContext.content.length ≤
                  event.before.cc.idContext.length ∧
                kidContext.content.length ≤ maxKidContextLen)))) := by
  constructor
  · intro isClient protects event member input capacity packet options called
      parsed notCopied request isOptions fits small
    exact
      run.protected_iff canonical total isClient initialised protects member
        called parsed notCopied request isOptions fits small
  · intro answers past event rest split input capacity options piv kidContext
      client called genuine
    rw [split] at run answers
    obtain ⟨pastRun, _, _⟩ := Run.split_iff.mp run
    have room : ServerRoom platform params past event.before := by
      refine pastRun.history initialised.serverRoom ?_
      intro earlier other member step before
      exact
        before.call canonical step
          (answers other (List.mem_append_left _ member))
    have pivShort : piv.content.length ≤ maxPivLen := by
      obtain ⟨packet, option, firstByte, reaches, _⟩ := genuine.reaches
      rw [ByteArrayView.content_length genuine.piv_inBounds]
      exact reaches.pivFits
    rw [← room.hasRoom_iff canonical pivShort]
    constructor
    · intro updated
      obtain ⟨after, updated⟩ := updated
      exact contextUpdate_hasRoom updated
    · intro hasRoom
      obtain ⟨after, updated, _⟩ :=
        (genuine.follows_iff room.keys.keys room.keys.has).mpr hasRoom
      exact ⟨after, updated⟩

/-! ## Short and long sender IDs -/

private def t1Options : List OCoapOption :=
  [ { delta := 11, len := 3, value := [0x74, 0x76, 0x31]
      optionNumber := 11 } ]

private theorem t1Packet_fits : FitsBuffers t1Packet t1Options 300 := by
  refine
    ⟨?_, by decide, by decide, by decide, by decide, by decide, by decide⟩
  intro option member
  rw [List.mem_singleton.mp member]
  decide

/-- A GET request with a path of 13 bytes, whose length takes an extension
byte. -/
private def longPathRequest : Bytes :=
  [0x40, 1, 0, 1, 0xBD, 0] ++ List.replicate 13 0x61

private def longPathOptions : List OCoapOption :=
  [ { delta := 11, len := 13, value := List.replicate 13 0x61
      optionNumber := 11 } ]

private def longPathPacket : OCoapPacket :=
  { t1Packet with options := some longPathOptions }

private theorem longPathPacket_fits :
    FitsBuffers longPathPacket longPathOptions 300 := by
  refine
    ⟨?_, by decide, by decide, by decide, by decide, by decide, by decide⟩
  intro option member
  rw [List.mem_singleton.mp member]
  decide

private def sealsFirst : CallEvent :=
  callEvent t1Sealing t1Client (.coap2oscore t1Request 300)

private def sealsLongPath : CallEvent :=
  callEvent t1Sealing sealsFirst.after (.coap2oscore longPathRequest 300)

private def sealsLast : CallEvent :=
  callEvent t1Sealing sealsLongPath.after (.coap2oscore t1Request 300)

private def servesFirst : CallEvent :=
  callEvent t1Sealing t1Server (.oscore2coap t1OscoreRequest 64)

private def answersFirst : CallEvent :=
  callEvent t1Sealing servesFirst.after (.coap2oscore t1Response 64)

private def servesSecond : CallEvent :=
  callEvent t1Sealing answersFirst.after (.oscore2coap t1NextOscoreRequest 64)

private theorem servesFirst_genuine :
    GenuineRequest t1Sealing t1ServerParams servesFirst.before t1OscoreRequest
      (t1OscoreOptions t1OscoreRequest) (t1Piv t1OscoreRequest) ⟨0, []⟩
      t1Client :=
  t1Requests_genuine (Or.inl rfl) rfl ⟨zeroBuffers, rfl⟩

private theorem servesSecond_genuine :
    GenuineRequest t1Sealing t1ServerParams servesSecond.before
      t1NextOscoreRequest (t1OscoreOptions t1NextOscoreRequest)
      (t1Piv t1NextOscoreRequest) ⟨0, []⟩ t1Client :=
  t1Requests_genuine (Or.inr rfl) (by decide +kernel) ⟨zeroBuffers, rfl⟩

private theorem answersFirst_answers :
    Answers t1Sealing t1ServerParams answersFirst := by
  refine Or.inl ⟨_, _, rfl, ?_⟩
  intro packet parsed request
  cases parsed
  cases request

private theorem servesFirst_builds {other : Bytes}
    (built : BuildsAad t1Sealing servesFirst other) : other = [0] :=
  (built.of_genuine rfl servesFirst_genuine).1

/-- The client of test vector T1 protects its first and third request and cannot
protect the second, whose options are counted wrong; its server builds the AAD
of a second request behind the answer to the first. -/
theorem request_protected_t1 :
    (∃ output, sealsFirst.output = .ok (some output)) ∧
      (¬ ∃ output, sealsLongPath.output = .ok (some output)) ∧
      (∃ output, sealsLast.output = .ok (some output)) ∧
      ∃ after,
        exec
            (contextUpdate t1Sealing .server
              (t1OscoreOptions t1NextOscoreRequest)
              (t1Piv t1NextOscoreRequest) ⟨0, []⟩)
            servesSecond.before = (.ok (), after) := by
  have clientRun : CallRun t1Sealing t1Client
      [sealsFirst, sealsLongPath, sealsLast] sealsLast.after :=
    .cons (callEvent_step (by decide +kernel))
      (.cons (callEvent_step (by decide +kernel))
        (.cons (callEvent_step (by decide +kernel)) (.nil _)))
  have serverRun : CallRun t1Sealing t1Server
      [servesFirst, answersFirst, servesSecond] servesSecond.after :=
    .cons (callEvent_step (by decide +kernel))
      (.cons (callEvent_step (by decide +kernel))
        (.cons (callEvent_step (by decide +kernel)) (.nil _)))
  have protectedIff :=
    (request_protected_iff t1Sealing canonicalCbor_isCanonical t1Sealing_total
      t1ClientParams t1Client sealsLast.after _ ⟨zeroBuffers, rfl⟩
      clientRun).1 rfl (by
        intro event member
        simp only [List.mem_cons, List.not_mem_nil, or_false] at member
        rcases member with rfl | rfl | rfl
        · exact ⟨_, _, rfl⟩
        · exact ⟨_, _, rfl⟩
        · exact ⟨_, _, rfl⟩)
  have builtIff :=
    (request_protected_iff t1Sealing canonicalCbor_isCanonical t1Sealing_total
      t1ServerParams t1Server servesSecond.after _ ⟨zeroBuffers, rfl⟩
      serverRun).2 (by
        intro event member
        simp only [List.mem_cons, List.not_mem_nil, or_false] at member
        rcases member with rfl | rfl | rfl
        · exact Or.inr ⟨_, _, _, _, _, _, rfl, servesFirst_genuine⟩
        · exact answersFirst_answers
        · exact Or.inr ⟨_, _, _, _, _, _, rfl, servesSecond_genuine⟩)
  refine ⟨?_, ?_, ?_, ?_⟩
  · exact
      (protectedIff sealsFirst (by simp) t1Request 300 t1Packet t1Options rfl
        rfl rfl rfl rfl t1Packet_fits (by decide +kernel)).mpr
        ⟨by decide +kernel, by decide, Or.inl rfl⟩
  · rw [protectedIff sealsLongPath (by simp) longPathRequest 300
      longPathPacket longPathOptions rfl (by decide) rfl rfl rfl
      longPathPacket_fits (by decide +kernel)]
    intro conditions
    obtain ⟨_, _, counted⟩ := conditions
    unfold CountedRight at counted
    exact absurd counted (by decide)
  · exact
      (protectedIff sealsLast (by simp) t1Request 300 t1Packet t1Options rfl
        rfl rfl rfl rfl t1Packet_fits (by decide +kernel)).mpr
        ⟨by decide +kernel, by decide, Or.inl rfl⟩
  · refine
      (builtIff [servesFirst, answersFirst] servesSecond [] rfl
        t1NextOscoreRequest 64 _ _ _ t1Client rfl servesSecond_genuine).mpr
        ⟨?_, Or.inl (by decide +kernel)⟩
    intro earlier member other built
    simp only [List.mem_cons, List.not_mem_nil, or_false] at member
    rcases member with rfl | rfl
    · rw [servesFirst_builds built]
      decide
    · obtain ⟨_, _, _, _, _, _, _, _, _, called, _⟩ := built
      cases called

private def longIdKey : Bytes :=
  [0x91, 0x0D, 0x93, 0x8E, 0xA3, 0x44, 0x78, 0xB3, 0x60, 0x28, 0x8F, 0xC0,
    0x78, 0x2F, 0xDC, 0xC4]

private def longIdPlatform : Platform :=
  .ofRecords
    (t1HkdfRecords ++
      [ { secret := t1MasterSecret, salt := t1MasterSalt
          info :=
            hkdfInfo canonicalCbor [1, 2, 3, 4, 5, 6, 7] []
              .oscoreAesCcm16_64_128 .key
          out := longIdKey } ])
    t1AeadRecords t1AeadRecords_lengths

private def longIdParams : OscoreInitParams :=
  { t1ClientParams with
    senderId := [1, 2, 3, 4, 5, 6, 7]
    recipientId := [] }

private def longIdClient : Context :=
  { t1Client with
    rrc := { t1Client.rrc with kid := [1, 2, 3, 4, 5, 6, 7] }
    sc :=
      { senderId := [1, 2, 3, 4, 5, 6, 7]
        senderKey := longIdKey
        senderSeqNum := 0 }
    rc := { t1Client.rc with recipientId := [], recipientKey := t1ClientKey } }

/-- A client with a sender ID of seven bytes cannot protect a request. -/
theorem longId_not_protected :
    Initialised longIdPlatform longIdParams longIdClient ∧
      longIdParams.senderId.length ≤ maxKidLen ∧
      longIdClient.sc.senderSeqNum.toNat < 2 ^ 40 ∧
      buf2coap t1Request = .ok t1Packet ∧
      FitsBuffers t1Packet t1Options 300 ∧
      (exec (coap2oscore longIdPlatform t1Request 300) longIdClient).1 =
        fail .bufferToSmall :=
  ⟨⟨zeroBuffers, rfl⟩, by decide, by decide, rfl, t1Packet_fits,
    by decide +kernel⟩

end UoscoreUedhoc.Oscore

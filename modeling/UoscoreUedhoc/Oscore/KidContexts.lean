import UoscoreUedhoc.Oscore.DerivedKeys
import UoscoreUedhoc.Oscore.RejectedPackets
import UoscoreUedhoc.Oscore.ReplayProtection

/-!
# KID contexts

A server takes over the KID context of a request as its ID context and derives
the keys for it, which are those of the client with that ID context.  The copy
into the ID context is bounded by the length of the ID context before, so that
the server follows its clients to shorter ID contexts only.
-/

namespace UoscoreUedhoc.Oscore

open UoscoreUedhoc
open UoscoreUedhoc.Runs
open Update

variable {platform : Platform}

/-! ## Client and server -/

/-- The parameters of the client of a server, with an ID context. -/
def OscoreInitParams.client (params : OscoreInitParams) (idContext : Bytes) :
    OscoreInitParams :=
  { params with
    devType := .client
    senderId := params.recipientId
    recipientId := params.senderId
    idContext }

/-- The context has been initialised with these parameters, up to the ID
context. -/
structure HasParameters (params : OscoreInitParams) (c : Context) : Prop where
  aeadAlg : c.cc.aeadAlg = params.aeadAlg
  kdf : c.cc.kdf = params.hkdf
  masterSecret : c.cc.masterSecret = params.masterSecret
  masterSalt : c.cc.masterSalt = params.masterSalt
  senderId : c.sc.senderId = params.senderId
  recipientId : c.rc.recipientId = params.recipientId
  kid : c.rrc.kid = params.clientId
  kid_length : c.rrc.kid.length ≤ maxKidLen

theorem Initialised.hasParameters {params : OscoreInitParams} {c : Context}
    (initialised : Initialised platform params c) : HasParameters params c := by
  have fit := initialised.idsFit
  obtain ⟨buffers, done⟩ := initialised
  have initial := oscoreContextInit_initial done
  exact
    ⟨initial.aeadAlg, initial.kdf, initial.masterSecret, initial.masterSalt,
      initial.senderId, initial.recipientId, initial.kid, fit.kid⟩

theorem HasParameters.of_same {params : OscoreInitParams}
    {before after : Context} (has : HasParameters params before)
    (same : SameParameters before after) : HasParameters params after := by
  refine
    ⟨same.aeadAlg.trans has.aeadAlg, same.kdf.trans has.kdf,
      same.masterSecret.trans has.masterSecret,
      same.masterSalt.trans has.masterSalt,
      same.senderId.trans has.senderId,
      same.recipientId.trans has.recipientId, same.kid.trans has.kid, ?_⟩
  rw [same.kid]
  exact has.kid_length

theorem Initialised.idContext {params : OscoreInitParams} {c : Context}
    (initialised : Initialised platform params c) :
    c.cc.idContext = params.idContext := by
  obtain ⟨buffers, done⟩ := initialised
  exact (oscoreContextInit_initial done).idContext

section Client

variable {params : OscoreInitParams} {c client : Context}
  {idContext : Bytes}

/-- A server with the ID context of its client derives what the client
derives. -/
theorem HasParameters.derive_eq (has : HasParameters params c)
    (initialised : Initialised platform (params.client idContext) client)
    (id : Bytes) (type : DeriveType) (outLen : Nat) :
    derive platform { c.cc with idContext } id type outLen =
      derive platform client.cc id type outLen := by
  have clientHas := initialised.hasParameters
  apply derive_congr
  · exact has.aeadAlg.trans clientHas.aeadAlg.symm
  · exact has.kdf.trans clientHas.kdf.symm
  · exact has.masterSecret.trans clientHas.masterSecret.symm
  · exact has.masterSalt.trans clientHas.masterSalt.symm
  · exact initialised.idContext.symm

/-- The keys for the ID context of the client, as the server derives them. -/
theorem HasParameters.client_derived (has : HasParameters params c)
    (initialised : Initialised platform (params.client idContext) client) :
    deriveCommonIv platform { c.cc with idContext } =
        .ok client.cc.commonIv ∧
      deriveSenderKey platform { c.cc with idContext } c.sc.senderId =
        .ok client.rc.recipientKey ∧
      deriveRecipientKey platform { c.cc with idContext } c.rc.recipientId =
        .ok client.sc.senderKey := by
  have derived := initialised_keysDerived initialised
  have clientHas := initialised.hasParameters
  refine ⟨?_, ?_, ?_⟩
  · exact (has.derive_eq initialised _ _ _).trans derived.commonIv
  · refine (has.derive_eq initialised _ _ _).trans ?_
    rw [has.senderId]
    have recipient := derived.recipientKey
    rw [clientHas.recipientId] at recipient
    exact recipient
  · refine (has.derive_eq initialised _ _ _).trans ?_
    rw [has.recipientId]
    have sender := derived.senderKey
    rw [clientHas.senderId] at sender
    exact sender

/-- The keys of the context are those of the client. -/
structure SharesKeys (server client : Context) : Prop where
  commonIv : server.cc.commonIv = client.cc.commonIv
  senderKey : server.sc.senderKey = client.rc.recipientKey
  recipientKey : server.rc.recipientKey = client.sc.senderKey

theorem KeysDerived.sharesKeys (keys : KeysDerived platform c)
    (has : HasParameters params c) (same : c.cc.idContext = idContext)
    (initialised : Initialised platform (params.client idContext) client) :
    SharesKeys c client := by
  obtain ⟨iv, sender, recipient⟩ := has.client_derived initialised
  subst same
  refine ⟨?_, ?_, ?_⟩
  · exact Except.ok.inj (keys.commonIv.symm.trans iv)
  · exact Except.ok.inj (keys.senderKey.symm.trans sender)
  · exact Except.ok.inj (keys.recipientKey.symm.trans recipient)

theorem Initialised.commonIv_length
    (initialised : Initialised platform params c) :
    c.cc.commonIv.length = commonIvLen := by
  have derived := (initialised_keysDerived initialised).commonIv
  unfold deriveCommonIv derive at derived
  obtain ⟨info, _, derived⟩ := outcome_bind_eq_ok.mp derived
  split at derived
  · exact platform.hkdfSha256_length (tryExpect_eq_ok.mp derived)
  · cases derived

end Client

/-! ## One request -/

/-- What a request that gets as far as `context_update` hands to it. -/
structure GenuineRequest (platform : Platform) (params : OscoreInitParams)
    (c : Context) (input : Bytes) (options : List OCoapOption)
    (piv kidContext : ByteArrayView) (client : Context) : Prop where
  reaches : ∃ packet option first,
    ReachesUpdate c input packet option first piv kidContext ∧
      packet.options = some options
  piv_inBounds : piv.InBounds
  kidContext_inBounds : kidContext.InBounds
  client : Initialised platform (params.client kidContext.content) client

/-- `context_update` succeeds for the request and leaves its KID context and
the keys of the client for it. -/
def FollowsClient (platform : Platform) (c : Context)
    (options : List OCoapOption) (piv kidContext : ByteArrayView)
    (client : Context) : Prop :=
  ∃ after,
    exec (contextUpdate platform .server options piv kidContext) c =
        (.ok (), after) ∧
      after.cc.idContext = kidContext.content ∧
      SharesKeys after client

section Request

variable {params : OscoreInitParams} {c client : Context} {input : Bytes}
  {options : List OCoapOption} {piv kidContext : ByteArrayView}

/-- The identity of the request with these fields. -/
def fieldsIdentity (c : Context) (piv kidContext : ByteArrayView) :
    RequestIdentity :=
  ⟨c.rrc.kid, kidContext.content, piv.content⟩

theorem contextUpdate_hasRoom {after : Context} {done : Unit}
    (updated :
      exec (contextUpdate platform .server options piv kidContext) c =
        (.ok done, after)) :
    HasRoomFor platform.toCborEncoder c (fieldsIdentity c piv kidContext) := by
  obtain ⟨between, nonce, server, _, fits, _⟩ :=
    contextUpdate_server_eq_ok.mp updated
  have taken := serverUpdate_updated server
  refine ⟨?_, taken.kidContext_fits⟩
  unfold requestAad at fits
  rw [taken.aeadAlg, taken.kid, taken.piv, taken.aad] at fits
  exact fits

theorem contextUpdate_sharesKeys {after : Context} {done : Unit}
    (updated :
      exec (contextUpdate platform .server options piv kidContext) c =
        (.ok done, after))
    (keys : KeysDerived platform c) (has : HasParameters params c)
    (initialised :
      Initialised platform (params.client kidContext.content) client) :
    KeysDerived platform after ∧ after.cc.idContext = kidContext.content ∧
      SharesKeys after client := by
  have kept := contextUpdate_keeps platform .server options piv kidContext c
  rw [updated] at kept
  obtain ⟨between, nonce, server, _, _, rfl⟩ :=
    contextUpdate_server_eq_ok.mp updated
  have taken := serverUpdate_updated server
  have betweenKeys := taken.keys keys
  have afterKeys : KeysDerived platform
      (between.setNonceAndAad nonce
        (requestAad platform.toCborEncoder between)) :=
    ⟨betweenKeys.commonIv, betweenKeys.senderKey, betweenKeys.recipientKey⟩
  exact
    ⟨afterKeys, taken.idContext,
      afterKeys.sharesKeys (has.of_same kept.toSameParameters)
        taken.idContext initialised⟩

/-- With its keys derived, the server follows a genuine request exactly when
there is room for it. -/
theorem GenuineRequest.follows_iff
    (genuine :
      GenuineRequest platform params c input options piv kidContext client)
    (keys : KeysDerived platform c) (has : HasParameters params c) :
    FollowsClient platform c options piv kidContext client ↔
      HasRoomFor platform.toCborEncoder c (fieldsIdentity c piv kidContext) := by
  constructor
  · intro follows
    obtain ⟨after, updated, _⟩ := follows
    exact contextUpdate_hasRoom updated
  · intro room
    obtain ⟨packet, option, first, reaches, _⟩ := genuine.reaches
    obtain ⟨iv, sender, recipient⟩ := has.client_derived genuine.client
    obtain ⟨between, server⟩ :=
      serverUpdate_total reaches.pivFits genuine.piv_inBounds
        genuine.kidContext_inBounds room.kidContext
        ⟨_, _, _, iv, sender, recipient⟩
    have taken := serverUpdate_updated server
    have kept := serverUpdate_keeps platform piv kidContext c
    rw [server] at kept
    have shared :=
      (taken.keys keys).sharesKeys (has.of_same kept.toSameParameters)
        taken.idContext genuine.client
    have pivFits : between.rrc.piv.length ≤ maxPivLen := by
      rw [taken.piv, ByteArrayView.content_length genuine.piv_inBounds]
      exact reaches.pivFits
    have kidFits : between.rrc.kid.length ≤ paddedIdPivLen := by
      rw [taken.kid]
      exact has.kid_length
    have ivFits : between.cc.commonIv.length ≤ nonceLen := by
      rw [shared.commonIv, genuine.client.commonIv_length]
      exact Nat.le_refl _
    obtain ⟨nonce, created, _⟩ := createNonce_total pivFits kidFits ivFits
    have fits :
        (requestAad platform.toCborEncoder between).length ≤
          between.rrc.aad.length := by
      unfold requestAad
      rw [taken.aeadAlg, taken.kid, taken.piv, taken.aad]
      exact room.aad
    have updated :
        exec (contextUpdate platform .server options piv kidContext) c =
          (.ok (),
            between.setNonceAndAad nonce
              (requestAad platform.toCborEncoder between)) :=
      contextUpdate_server_eq_ok.mpr
        ⟨between, nonce, server, created, fits, rfl⟩
    obtain ⟨_, idContext, sharedAfter⟩ :=
      contextUpdate_sharesKeys updated keys has genuine.client
    exact ⟨_, updated, idContext, sharedAfter⟩

end Request

/-! ## Sequences of requests -/

/-- The parameters and the keys of a server. -/
structure ServerKeys (platform : Platform) (params : OscoreInitParams)
    (c : Context) : Prop where
  has : HasParameters params c
  keys : KeysDerived platform c

theorem kidContextUpdate_serverKeys {params : OscoreInitParams}
    {kidContext : ByteArrayView} {client : Context}
    (initialised :
      Initialised platform (params.client kidContext.content) client) :
    Keeps (Preserves (ServerKeys platform params))
      (kidContextUpdate platform kidContext) := by
  intro c before
  have kept := kidContextUpdate_keeps platform kidContext c
  refine ⟨before.has.of_same kept.toSameParameters, ?_⟩
  apply kidContextUpdate_keysDerived_of before.keys
  intro _
  obtain ⟨iv, sender, recipient⟩ := before.has.client_derived initialised
  exact ⟨_, _, _, iv, sender, recipient⟩

theorem GenuineRequest.keepsKeys {params : OscoreInitParams} {c client : Context}
    {input : Bytes} {options : List OCoapOption}
    {piv kidContext : ByteArrayView}
    (genuine :
      GenuineRequest platform params c input options piv kidContext client)
    (capacity : Nat) (before : ServerKeys platform params c) :
    ServerKeys platform params
      (exec (oscore2coap platform input capacity) c).2 := by
  obtain ⟨packet, option, first, reaches, _⟩ := genuine.reaches
  obtain ⟨options, ran⟩ :=
    exec_oscore2coap_of_reaches platform capacity reaches
  have kept :=
    contextUpdate_server_keeps_of
      (fun _ _ holds =>
        (⟨⟨holds.1.1, holds.1.2, holds.1.3, holds.1.4, holds.1.5, holds.1.6,
            holds.1.7, holds.1.8⟩,
          ⟨holds.2.1, holds.2.2, holds.2.3⟩⟩ :
            ServerKeys platform params _))
      (fun _ _ _ holds =>
        ⟨⟨holds.1.1, holds.1.2, holds.1.3, holds.1.4, holds.1.5, holds.1.6,
            holds.1.7, holds.1.8⟩,
          ⟨holds.2.1, holds.2.2, holds.2.3⟩⟩)
      (kidContextUpdate_serverKeys genuine.client) options piv c before
  rw [ran]
  generalize exec (contextUpdate platform .server options piv kidContext) c =
    step at kept ⊢
  obtain ⟨outcome, between⟩ := step
  cases outcome with
  | error fault =>
      exact kept
  | ok done =>
      rcases afterUpdate_context platform packet first capacity between with
        same | recorded
      · dsimp only
        rw [same]
        exact kept
      · dsimp only
        rw [recorded]
        exact
          ⟨⟨kept.1.1, kept.1.2, kept.1.3, kept.1.4, kept.1.5, kept.1.6,
              kept.1.7, kept.1.8⟩,
            ⟨kept.2.1, kept.2.2, kept.2.3⟩⟩

/-- The call protects a packet or receives a genuine request. -/
def Serves (platform : Platform) (params : OscoreInitParams)
    (event : CallEvent) : Prop :=
  (∃ input capacity, event.input = .coap2oscore input capacity) ∨
    ∃ input capacity options piv kidContext client,
      event.input = .oscore2coap input capacity ∧
        GenuineRequest platform params event.before input options piv
          kidContext client

theorem Serves.keepsKeys {params : OscoreInitParams} {event : CallEvent}
    (serves : Serves platform params event)
    (step : callMachine platform event)
    (before : ServerKeys platform params event.before) :
    ServerKeys platform params event.after := by
  rcases serves with protects | receives
  · have same := callRun_coap2oscore_keeps step protects
    exact
      ⟨before.has.of_same same.sameParameters, before.keys.of_sameKeys same⟩
  · obtain ⟨input, capacity, options, piv, kidContext, client, called,
      genuine⟩ := receives
    have kept := genuine.keepsKeys capacity before
    rw [callMachine_oscore2coap step called] at kept
    exact kept

/-- In every sequence of genuine requests, with the responses between them, the
server follows the client of a request exactly when there is room for the
request. -/
theorem server_follows_iff (platform : Platform) (params : OscoreInitParams)
    (server last : Context) (events : List CallEvent)
    (initialised : Initialised platform params server)
    (run : CallRun platform server events last)
    (served : ∀ event ∈ events, Serves platform params event) :
    ∀ event ∈ events, ∀ input capacity options piv kidContext client,
      event.input = .oscore2coap input capacity →
      GenuineRequest platform params event.before input options piv kidContext
        client →
      (FollowsClient platform event.before options piv kidContext client ↔
        HasRoomFor platform.toCborEncoder event.before
          (fieldsIdentity event.before piv kidContext)) := by
  intro event member input capacity options piv kidContext client _ genuine
  have reached : ServerKeys platform params event.before := by
    refine run.invariant_before ?_ ?_ member
    · exact
        ⟨initialised.hasParameters, initialised_keysDerived initialised⟩
    · intro other otherMember step before
      exact (served other otherMember).keepsKeys step before
  exact genuine.follows_iff reached.keys reached.has

/-! ## The contexts of test vectors T5 and T6 -/

private def t5Options : List OCoapOption :=
  [ { delta := 3, len := 9, value := t5OscoreRequest.drop 9
      optionNumber := 3 },
    { delta := 6, len := 11, value := t5OscoreRequest.drop 19
      optionNumber := 9 } ]

private def t5Piv : ByteArrayView := ⟨1, t5OscoreRequest.drop 20⟩

private def t5KidContext : ByteArrayView := ⟨8, t5OscoreRequest.drop 22⟩

private theorem t5Request_genuine (params : OscoreInitParams) (c : Context)
    (recipientId : c.rc.recipientId = [])
    (client : Initialised t5Platform (params.client t5IdContext) t5Client) :
    GenuineRequest t5Platform params c t5OscoreRequest t5Options t5Piv
      t5KidContext t5Client := by
  refine ⟨⟨_, _, _, ⟨rfl, rfl, rfl, ⟨_, rfl, ?_⟩, rfl, rfl, rfl⟩, rfl⟩, ?_, ?_,
    client⟩
  · rw [recipientId]
    rfl
  · decide
  · decide

/-- The option of a request without KID context. -/
def t1OscoreOptions (input : Bytes) : List OCoapOption :=
  [ { delta := 9, len := 2, value := input.drop 5, optionNumber := 9 } ]

/-- Its Partial IV. -/
def t1Piv (input : Bytes) : ByteArrayView := ⟨1, input.drop 6⟩

/-- The two requests of test vector T1 are genuine on every server with the
empty recipient ID. -/
theorem t1Requests_genuine {params : OscoreInitParams} {c : Context}
    {input : Bytes}
    (called : input = t1OscoreRequest ∨ input = t1NextOscoreRequest)
    (recipientId : c.rc.recipientId = [])
    (client : Initialised platform (params.client []) t1Client) :
    GenuineRequest platform params c input (t1OscoreOptions input)
      (t1Piv input) ⟨0, []⟩ t1Client := by
  rcases called with rfl | rfl
  · refine ⟨⟨_, _, 0, ⟨rfl, rfl, rfl, ⟨_, rfl, ?_⟩, rfl, rfl, rfl⟩, rfl⟩, ?_,
      ?_, client⟩
    · rw [recipientId]
      rfl
    · decide
    · decide
  · refine ⟨⟨_, _, 1, ⟨rfl, rfl, rfl, ⟨_, rfl, ?_⟩, rfl, rfl, rfl⟩, rfl⟩, ?_,
      ?_, client⟩
    · rw [recipientId]
      rfl
    · decide
    · decide

/-- The server of test vector T6 follows the client with its ID context and then
the one without, whose keys are others. -/
theorem server_follows_t6 :
    FollowsClient t5Platform t6Server t5Options t5Piv t5KidContext t5Client ∧
      (t6Switches t5Platform).before.cc.idContext = t5IdContext ∧
      FollowsClient t5Platform (t6Switches t5Platform).before
        (t1OscoreOptions t1OscoreRequest) (t1Piv t1OscoreRequest) ⟨0, []⟩
        t1Client := by
  have genuine :=
    t5Request_genuine t6ServerParams t6Server rfl ⟨zeroBuffers, rfl⟩
  have switches :
      GenuineRequest t5Platform t6ServerParams (t6Switches t5Platform).before
        t1OscoreRequest (t1OscoreOptions t1OscoreRequest)
        (t1Piv t1OscoreRequest) ⟨0, []⟩ t1Client :=
    t1Requests_genuine (Or.inl rfl) (by decide +kernel) ⟨zeroBuffers, rfl⟩
  have run : CallRun t5Platform t6Server
      [t6Serves t5Platform, t6Switches t5Platform]
      (t6Switches t5Platform).after :=
    .cons (callEvent_step (by decide +kernel))
      (.cons (callEvent_step (by decide +kernel)) (.nil _))
  have follows :=
    server_follows_iff t5Platform t6ServerParams t6Server _ _
      ⟨zeroBuffers, rfl⟩ run (by
        intro event member
        simp only [List.mem_cons, List.not_mem_nil, or_false] at member
        rcases member with rfl | rfl
        · exact Or.inr ⟨_, _, _, _, _, _, rfl, genuine⟩
        · exact Or.inr ⟨_, _, _, _, _, _, rfl, switches⟩)
  refine ⟨?_, by decide +kernel, ?_⟩
  · exact
      (follows (t6Serves t5Platform) (by simp) t5OscoreRequest 64 t5Options
        t5Piv t5KidContext t5Client rfl genuine).mpr (by decide)
  · exact
      (follows (t6Switches t5Platform) (by simp) t1OscoreRequest 64
        (t1OscoreOptions t1OscoreRequest) (t1Piv t1OscoreRequest) ⟨0, []⟩
        t1Client rfl switches).mpr (by decide +kernel)

/-- A server without ID context refuses the request of that client, which
carries one. -/
theorem server_not_follows_t5 :
    Initialised t5Platform t1ServerParams t1Server ∧
      Initialised t5Platform (t1ServerParams.client t5IdContext) t5Client ∧
      (exec (coap2oscore t5Platform t5Request 64)
        { t5Client with sc := { t5Client.sc with senderSeqNum := 20 } }).1 =
        .ok t5OscoreRequest ∧
      GenuineRequest t5Platform t1ServerParams t1Server t5OscoreRequest
        t5Options t5Piv t5KidContext t5Client ∧
      ¬ FollowsClient t5Platform t1Server t5Options t5Piv t5KidContext
          t5Client ∧
      (exec (oscore2coap t5Platform t5OscoreRequest 64) t1Server).1 =
        fail .bufferToSmall := by
  refine
    ⟨⟨zeroBuffers, rfl⟩, ⟨zeroBuffers, rfl⟩, by decide +kernel,
      t5Request_genuine t1ServerParams t1Server rfl ⟨zeroBuffers, rfl⟩, ?_,
      by decide +kernel⟩
  intro follows
  obtain ⟨after, updated, _⟩ := follows
  have room := contextUpdate_hasRoom updated
  exact absurd room (by decide)

end UoscoreUedhoc.Oscore

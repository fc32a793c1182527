import UoscoreUedhoc.Oscore.Calls

/-!
# Replay protection

`replay_check` keeps the flag `first_run` in a local variable, so that it never
looks at the replay window.  What refuses the second delivery of a request is
only `context_update`, when the request-response context has no room left for
the AAD of the request or the ID context none for its KID context.
-/

namespace UoscoreUedhoc.Oscore

open UoscoreUedhoc
open UoscoreUedhoc.Runs
open Update

/-! ## The identity of a request -/

/-- What a request is recognised by. -/
structure RequestIdentity where
  kid : Bytes
  kidContext : Bytes
  piv : Bytes
  deriving DecidableEq, Repr

/-- The identity of an OSCORE request, an error for any other packet. -/
def requestIdentity (input : Bytes) : Outcome RequestIdentity := do
  let packet ← buf2coap input
  let (option, flag) ← oscoreOptionParser packet
  if flag && isRequest packet then
    let kid ← orUndefined option.kid
    let kidContext ← orUndefined option.kidContext
    let piv ← pivArray option
    .ok
      { kid := kid.content
        kidContext := kidContext.content
        piv := piv.content }
  else
    fail .notValidInputPacket

theorem requestIdentity_eq_ok {input : Bytes} {identity : RequestIdentity} :
    requestIdentity input = .ok identity ↔
      ∃ packet option kid kidContext piv,
        buf2coap input = .ok packet ∧
          oscoreOptionParser packet = .ok (option, true) ∧
          isRequest packet = true ∧
          option.kid = some kid ∧ option.kidContext = some kidContext ∧
          pivArray option = .ok piv ∧
          identity = ⟨kid.content, kidContext.content, piv.content⟩ := by
  unfold requestIdentity
  simp only [outcome_bind_eq_ok, Prod.exists]
  constructor
  · intro named
    obtain ⟨packet, parsed, option, flag, optionParsed, named⟩ := named
    by_cases protectedRequest : (flag && isRequest packet) = true
    · rw [if_pos protectedRequest] at named
      obtain ⟨isProtected, request⟩ :=
        Bool.and_eq_true_iff.mp protectedRequest
      subst isProtected
      simp only [outcome_bind_eq_ok, orUndefined_eq_ok, Except.ok.injEq] at named
      obtain ⟨kid, kidWritten, kidContext, contextWritten, piv, pivRead,
        same⟩ := named
      exact
        ⟨packet, option, kid, kidContext, piv, parsed, optionParsed, request,
          kidWritten, contextWritten, pivRead, same.symm⟩
    · rw [if_neg protectedRequest] at named
      cases named
  · intro named
    obtain ⟨packet, option, kid, kidContext, piv, parsed, optionParsed,
      request, kidWritten, contextWritten, pivRead, same⟩ := named
    refine ⟨packet, parsed, option, true, optionParsed, ?_⟩
    rw [request, Bool.and_self, if_pos rfl, kidWritten, contextWritten,
      pivRead, same]
    rfl

/-- The step hands a request with this identity to `oscore2coap`. -/
def Delivers (event : CallEvent) (identity : RequestIdentity) : Prop :=
  ∃ input capacity, event.input = .oscore2coap input capacity ∧
    requestIdentity input = .ok identity

/-- `oscore2coap` returns `ok` for the request. -/
def Accepts (event : CallEvent) (identity : RequestIdentity) : Prop :=
  ∃ input capacity output, event.input = .oscore2coap input capacity ∧
    requestIdentity input = .ok identity ∧ event.output = .ok (some output)

theorem Accepts.delivers {event : CallEvent} {identity : RequestIdentity}
    (accepts : Accepts event identity) : Delivers event identity := by
  obtain ⟨input, capacity, _, called, named, _⟩ := accepts
  exact ⟨input, capacity, called, named⟩

theorem Accepts.unique {event : CallEvent} {identity other : RequestIdentity}
    (accepts : Accepts event identity) (otherAccepts : Accepts event other) :
    identity = other := by
  obtain ⟨input, _, _, called, named, _⟩ := accepts
  obtain ⟨input', _, _, called', named', _⟩ := otherAccepts
  rw [called] at called'
  cases called'
  rw [named] at named'
  exact Except.ok.inj named'

/-! ## Room for a request -/

/-- The AAD of the request fits into what the last AAD left of its array, and
the KID context is the ID context or fits into the last one. -/
structure HasRoomFor (cbor : CborEncoder) (c : Context)
    (identity : RequestIdentity) : Prop where
  aad :
    (aadArray cbor c.cc.aeadAlg c.rrc.kid identity.piv []).length ≤
      c.rrc.aad.length
  kidContext :
    identity.kidContext = c.cc.idContext ∨
      (identity.kidContext.length ≤ c.cc.idContext.length ∧
        identity.kidContext.length ≤ maxKidContextLen)

theorem initialised_keysDerived {platform : Platform}
    {params : OscoreInitParams} {c : Context}
    (initialised : Initialised platform params c) :
    KeysDerived platform c := by
  obtain ⟨buffers, done⟩ := initialised
  exact (oscoreContextInit_initial done).keys

instance (cbor : CborEncoder) (c : Context) (identity : RequestIdentity) :
    Decidable (HasRoomFor cbor c identity) :=
  decidable_of_iff
    ((aadArray cbor c.cc.aeadAlg c.rrc.kid identity.piv []).length ≤
        c.rrc.aad.length ∧
      (identity.kidContext = c.cc.idContext ∨
        (identity.kidContext.length ≤ c.cc.idContext.length ∧
          identity.kidContext.length ≤ maxKidContextLen)))
    ⟨fun room => ⟨room.1, room.2⟩, fun room => ⟨room.aad, room.kidContext⟩⟩

variable {platform : Platform}

/-- The fields of an accepted request are those of its identity, and the
context has taken them over. -/
theorem AcceptedRequest.fields {input : Bytes} {packet : OCoapPacket}
    {capacity : Nat} {c after : Context} {output : Bytes}
    {identity : RequestIdentity}
    (accepted : AcceptedRequest platform packet capacity c after output)
    (parsed : buf2coap input = .ok packet)
    (named : requestIdentity input = .ok identity) :
    ∃ option first piv kidContext between,
      oscoreOptionParser packet = .ok (option, true) ∧
        RequestFields c option first piv kidContext ∧
        exec (serverUpdate platform piv kidContext) c = (.ok (), between) ∧
        piv.content = identity.piv ∧
        kidContext.content = identity.kidContext ∧
        (requestAad platform.toCborEncoder between).length ≤
          between.rrc.aad.length ∧
        SameParameters between after ∧
        after.rrc.aad = requestAad platform.toCborEncoder between := by
  obtain ⟨packet', option, kid, kidContext, piv, parsed', optionParsed, _, _,
    contextWritten, pivRead, rfl⟩ := requestIdentity_eq_ok.mp named
  rw [parsed, Except.ok.injEq] at parsed'
  subst parsed'
  obtain ⟨option', options, first, between, plaintext, optionParsed', _,
    updated, _, _, rfl, _⟩ := accepted
  rw [optionParsed] at optionParsed'
  cases optionParsed'
  obtain ⟨first', piv', kidContext', middle, nonce, fields, server, _, fits,
    rfl⟩ := requestAccept_updated updated
  have samePiv := fields.piv
  have sameContext := fields.kidContext
  rw [pivRead] at samePiv
  rw [contextWritten] at sameContext
  cases samePiv
  cases sameContext
  exact
    ⟨option, first', piv, kidContext, middle, optionParsed, fields, server,
      rfl, rfl, fits, ⟨rfl, rfl, rfl, rfl, rfl, rfl, rfl⟩, rfl⟩

theorem AcceptedRequest.hasRoom {input : Bytes} {packet : OCoapPacket}
    {capacity : Nat} {c after : Context} {output : Bytes}
    {identity : RequestIdentity}
    (accepted : AcceptedRequest platform packet capacity c after output)
    (parsed : buf2coap input = .ok packet)
    (named : requestIdentity input = .ok identity) :
    HasRoomFor platform.toCborEncoder c identity := by
  obtain ⟨_, _, piv, kidContext, between, _, _, server, samePiv, sameContext,
    fits, _, _⟩ := accepted.fields parsed named
  have updated := serverUpdate_updated server
  refine ⟨?_, ?_⟩
  · unfold requestAad at fits
    rw [updated.aeadAlg, updated.kid, updated.piv, updated.aad, samePiv]
      at fits
    exact fits
  · rw [← sameContext]
    exact updated.kidContext_fits

/-- Contexts with the same parameters and derived keys take over the same
Partial IV and KID context with the same results. -/
theorem serverUpdate_again {piv kidContext : ByteArrayView}
    {c middle later : Context}
    (server : exec (serverUpdate platform piv kidContext) c = (.ok (), middle))
    (keys : KeysDerived platform middle)
    (laterKeys : KeysDerived platform later)
    (same : SameParameters middle later)
    (fits : kidContext.content = later.cc.idContext ∨
      (kidContext.content.length ≤ later.cc.idContext.length ∧
        kidContext.content.length ≤ maxKidContextLen)) :
    ∃ laterMiddle,
      exec (serverUpdate platform piv kidContext) later =
          (.ok (), laterMiddle) ∧
        SameParameters middle laterMiddle ∧
        laterMiddle.cc.commonIv = middle.cc.commonIv ∧
        laterMiddle.rc.recipientKey = middle.rc.recipientKey ∧
        laterMiddle.rrc.piv = middle.rrc.piv := by
  have updated := serverUpdate_updated server
  obtain ⟨pivFits, pivInBounds, _⟩ := serverUpdate_eq_ok.mp server
  obtain ⟨ivDerived, senderDerived, recipientDerived⟩ := keys.derivable same
  rw [updated.idContext] at ivDerived senderDerived recipientDerived
  obtain ⟨laterMiddle, laterServer⟩ :=
    serverUpdate_total pivFits pivInBounds (serverUpdate_inBounds server) fits
      ⟨_, _, _, ivDerived, senderDerived, recipientDerived⟩
  have laterUpdated := serverUpdate_updated laterServer
  have laterKept := serverUpdate_keeps platform piv kidContext later
  rw [laterServer] at laterKept
  have laterSame : SameParameters middle laterMiddle :=
    IsTrans.trans _ _ _ same laterKept.toSameParameters
  obtain ⟨commonIv, _, recipientKey⟩ :=
    keys.unique (laterUpdated.keys laterKeys) laterSame
      (updated.idContext.trans laterUpdated.idContext.symm)
  exact
    ⟨laterMiddle, laterServer, laterSame, commonIv, recipientKey,
      laterUpdated.piv.trans updated.piv.symm⟩

/-- A request that a context with the same keys has accepted is accepted again
when there is room for it. -/
theorem AcceptedRequest.again {input : Bytes} {packet : OCoapPacket}
    {capacity : Nat} {c after later : Context} {output : Bytes}
    {identity : RequestIdentity}
    (accepted : AcceptedRequest platform packet capacity c after output)
    (parsed : buf2coap input = .ok packet)
    (named : requestIdentity input = .ok identity)
    (keys : KeysDerived platform after)
    (laterKeys : KeysDerived platform later)
    (same : SameParameters after later)
    (room : HasRoomFor platform.toCborEncoder later identity) :
    ∃ final,
      AcceptedRequest platform packet capacity later final output := by
  obtain ⟨packet', option, kid, kidContext, piv, parsed', optionParsed, _,
    kidWritten, contextWritten, pivRead, rfl⟩ :=
    requestIdentity_eq_ok.mp named
  rw [parsed, Except.ok.injEq] at parsed'
  subst parsed'
  obtain ⟨option', options, first, between, plaintext, optionParsed', present,
    accept, decrypted, firstRead, rfl, delivered⟩ := accepted
  rw [optionParsed] at optionParsed'
  cases optionParsed'
  have kept := requestAccept_keeps platform options option c
  rw [accept] at kept
  obtain ⟨first', piv', kidContext', middle, nonce, fields, server, created,
    fits, rfl⟩ := requestAccept_updated accept
  have samePiv := fields.piv
  have sameContext := fields.kidContext
  rw [pivRead] at samePiv
  rw [contextWritten] at sameContext
  cases samePiv
  cases sameContext
  have middleKeys : KeysDerived platform middle :=
    ⟨keys.commonIv, keys.senderKey, keys.recipientKey⟩
  have middleSame : SameParameters middle later :=
    ⟨same.aeadAlg, same.kdf, same.masterSecret, same.masterSalt,
      same.senderId, same.recipientId, same.kid⟩
  obtain ⟨laterMiddle, laterServer, laterSame, commonIv, recipientKey,
    samePiv⟩ :=
    serverUpdate_again server middleKeys laterKeys middleSame room.kidContext
  have laterUpdated := serverUpdate_updated laterServer
  -- both contexts reach the same nonce and AAD
  have laterCreated :
      createNonce laterMiddle.rrc.kid laterMiddle.rrc.piv
        laterMiddle.cc.commonIv = .ok nonce := by
    rw [laterSame.kid, samePiv, commonIv]
    exact created
  have sameAad :
      requestAad platform.toCborEncoder laterMiddle =
        requestAad platform.toCborEncoder middle := by
    unfold requestAad
    rw [laterSame.aeadAlg, laterSame.kid, samePiv]
  have laterFits :
      (requestAad platform.toCborEncoder laterMiddle).length ≤
        laterMiddle.rrc.aad.length := by
    rw [laterUpdated.aad]
    unfold requestAad
    rw [laterUpdated.aeadAlg, laterUpdated.kid, laterUpdated.piv]
    exact room.aad
  have laterFields : RequestFields later option first' piv kidContext := by
    obtain ⟨kid, written, equal⟩ := fields.kid
    refine ⟨⟨kid, written, ?_⟩, fields.first, fields.piv, fields.kidContext⟩
    have recipientId : later.rc.recipientId = c.rc.recipientId :=
      middleSame.recipientId.trans kept.recipientId
    rw [recipientId]
    exact equal
  have laterAccept :
      exec (requestAccept platform options option) later =
        (.ok (),
          laterMiddle.setNonceAndAad nonce
            (requestAad platform.toCborEncoder laterMiddle)) := by
    rw [exec_requestAccept laterFields, contextUpdate_server_eq_ok]
    exact ⟨laterMiddle, nonce, laterServer, laterCreated, laterFits, rfl⟩
  have laterDecrypted :
      payloadDecrypt platform
          (laterMiddle.setNonceAndAad nonce
            (requestAad platform.toCborEncoder laterMiddle)) packet =
        .ok plaintext := by
    rw [← decrypted, sameAad]
    unfold payloadDecrypt Context.setNonceAndAad
    dsimp only
    rw [recipientKey]
  exact
    ⟨_, option, options, first, _, plaintext, optionParsed, present,
      laterAccept, laterDecrypted, firstRead, rfl, delivered⟩

/-! ## Runs -/

theorem Accepts.request {event : CallEvent} {identity : RequestIdentity}
    (accepts : Accepts event identity) (step : callMachine platform event) :
    ∃ input capacity packet output,
      event.input = .oscore2coap input capacity ∧
        requestIdentity input = .ok identity ∧
        buf2coap input = .ok packet ∧ isRequest packet = true ∧
        AcceptedRequest platform packet capacity event.before event.after
          output := by
  obtain ⟨input, capacity, output, called, named, succeeded⟩ := accepts
  obtain ⟨packet, _, _, _, _, parsed, _, request, _⟩ :=
    requestIdentity_eq_ok.mp named
  have ran := callMachine_oscore2coap step called
  rw [succeeded] at ran
  exact
    ⟨input, capacity, packet, output, called, named, parsed, request,
      (oscore2coap_request_eq_ok parsed request).mp ran⟩

theorem Accepts.hasRoom {event : CallEvent} {identity : RequestIdentity}
    (accepts : Accepts event identity) (step : callMachine platform event) :
    HasRoomFor platform.toCborEncoder event.before identity := by
  obtain ⟨input, capacity, packet, output, _, named, parsed, _, accepted⟩ :=
    accepts.request step
  exact accepted.hasRoom parsed named

/-- A later delivery of an accepted packet is accepted when there is room. -/
theorem Accepts.again {event later : CallEvent}
    {identity : RequestIdentity} {events : List CallEvent}
    (accepts : Accepts event identity) (step : callMachine platform event)
    (between : CallRun platform event.after events later.before)
    (laterStep : callMachine platform later)
    (repeated : later.input = event.input)
    (keys : KeysDerived platform event.after)
    (laterKeys : KeysDerived platform later.before)
    (room : HasRoomFor platform.toCborEncoder later.before identity) :
    Accepts later identity := by
  obtain ⟨input, capacity, packet, output, called, named, parsed, request,
    accepted⟩ := accepts.request step
  obtain ⟨final, again⟩ :=
    accepted.again parsed named keys laterKeys between.sameParameters room
  have ran := callMachine_oscore2coap laterStep (repeated.trans called)
  rw [(oscore2coap_request_eq_ok parsed request).mpr again] at ran
  obtain ⟨succeeded, _⟩ := Prod.mk.inj ran
  exact
    ⟨input, capacity, output, repeated.trans called, named, succeeded.symm⟩

/-- The property of replay protection for a list of steps. -/
def AcceptsOnce (events : List CallEvent) : Prop :=
  ∀ left event middle later right identity,
    events = left ++ event :: (middle ++ later :: right) →
    Accepts event identity → ¬ Accepts later identity

/-- In a run, a request is accepted once where no later delivery of it finds
room. -/
theorem acceptsOnce_of_no_room {first last : Context}
    {events : List CallEvent} (run : CallRun platform first events last)
    (refused : ∀ left event middle later right identity,
      events = left ++ event :: (middle ++ later :: right) →
      Accepts event identity → Delivers later identity →
      ¬ HasRoomFor platform.toCborEncoder later.before identity) :
    AcceptsOnce events := by
  intro left event middle later right identity split accepts again
  have step : callMachine platform later :=
    run.step_of_mem (by rw [split]; simp)
  exact
    refused left event middle later right identity split accepts
      again.delivers (again.hasRoom step)

/-- A later delivery of the bytes of an accepted request is refused exactly
when it finds no room, as long as the contexts hold the keys of their ID
contexts. -/
theorem repeated_refused_iff {params : OscoreInitParams}
    {first last : Context} {left middle right : List CallEvent}
    {event later : CallEvent} {identity : RequestIdentity}
    (initialised : Initialised platform params first)
    (run : CallRun platform first
      (left ++ event :: (middle ++ later :: right)) last)
    (derives : ∀ other ∈ left ++ event :: (middle ++ later :: right),
      KeysDerived platform other.before → KeysDerived platform other.after)
    (accepts : Accepts event identity) (repeated : later.input = event.input) :
    ¬ Accepts later identity ↔
      ¬ HasRoomFor platform.toCborEncoder later.before identity := by
  have isDerived := fun {other : CallEvent}
      (member : other ∈ left ++ event :: (middle ++ later :: right)) =>
    run.invariant_before (initialised_keysDerived initialised)
      (fun event member _ => derives event member) member
  have eventMember : event ∈ left ++ event :: (middle ++ later :: right) := by
    simp
  have laterMember : later ∈ left ++ event :: (middle ++ later :: right) := by
    simp
  have step := run.step_of_mem eventMember
  have laterStep := run.step_of_mem laterMember
  obtain ⟨_, _, rest⟩ := Run.append_iff.mp run
  obtain ⟨rfl, _, rest⟩ := Run.cons_iff.mp rest
  obtain ⟨_, between, rest⟩ := Run.append_iff.mp rest
  obtain ⟨rfl, _, _⟩ := Run.cons_iff.mp rest
  apply not_congr
  constructor
  · intro again
    exact again.hasRoom laterStep
  · intro room
    exact
      accepts.again step between laterStep repeated
        (derives event eventMember (isDerived eventMember))
        (isDerived laterMember) room

/-- In a run, a request is accepted once unless a later delivery of it finds
room.  Later deliveries of the same bytes that do find room are accepted, as
long as the contexts hold the keys of their ID contexts. -/
theorem acceptsOnce_unless_room (platform : Platform)
    (params : OscoreInitParams) (first last : Context)
    (events : List CallEvent)
    (initialised : Initialised platform params first)
    (run : CallRun platform first events last) :
    ((∀ left event middle later right identity,
        events = left ++ event :: (middle ++ later :: right) →
        Accepts event identity → Delivers later identity →
        ¬ HasRoomFor platform.toCborEncoder later.before identity) →
      AcceptsOnce events) ∧
    ((∀ event ∈ events,
        KeysDerived platform event.before → KeysDerived platform event.after) →
      ∀ left event middle later right identity,
        events = left ++ event :: (middle ++ later :: right) →
        Accepts event identity → later.input = event.input →
        (¬ Accepts later identity ↔
          ¬ HasRoomFor platform.toCborEncoder later.before identity)) := by
  constructor
  · exact acceptsOnce_of_no_room run
  · intro derives left event middle later right identity split accepts
      repeated
    subst split
    exact repeated_refused_iff initialised run derives accepts repeated

/-- The server of test vector T6 accepts the request of one client, then that
of another, and gets the first one again. -/
private def t6Repeats : List CallEvent :=
  [t6Serves t5Platform, t6Switches t5Platform, t6Refuses t5Platform]

private def t5Identity : RequestIdentity where
  kid := []
  kidContext := t5IdContext
  piv := [0x14]

private def t1Identity (piv : Bytes) : RequestIdentity where
  kid := []
  kidContext := []
  piv := piv

private theorem t6Serves_accepts : Accepts (t6Serves t5Platform) t5Identity :=
  ⟨_, _, t5Request, rfl, rfl, by decide +kernel⟩

private theorem t6Refuses_full :
    ¬ HasRoomFor canonicalCbor (t6Refuses t5Platform).before t5Identity := by
  decide +kernel

private theorem t6Repeats_pairs {left middle right : List CallEvent}
    {event later : CallEvent}
    (split : t6Repeats = left ++ event :: (middle ++ later :: right)) :
    (event = t6Serves t5Platform ∧ later = t6Switches t5Platform) ∨
      later = t6Refuses t5Platform := by
  have lengths := congrArg List.length split
  simp only [t6Repeats, List.length_cons, List.length_append,
    List.length_nil] at lengths
  match left, middle with
  | [], [] =>
      simp only [t6Repeats, List.nil_append, List.cons.injEq] at split
      exact Or.inl ⟨split.1.symm, split.2.1.symm⟩
  | [], [_] =>
      simp only [t6Repeats, List.nil_append, List.cons_append,
        List.cons.injEq] at split
      exact Or.inr split.2.2.1.symm
  | [_], [] =>
      simp only [t6Repeats, List.nil_append, List.cons_append,
        List.cons.injEq] at split
      exact Or.inr split.2.2.1.symm
  | [], _ :: _ :: _ =>
      simp only [List.length_cons, List.length_nil] at lengths
      omega
  | [_], _ :: _ =>
      simp only [List.length_cons, List.length_nil] at lengths
      omega
  | _ :: _ :: _, _ =>
      simp only [List.length_cons] at lengths
      omega

/-- On the server of test vector T6, every request is accepted once: the one
that is delivered again finds no room for its KID context. -/
theorem acceptsOnce_t6 :
    AcceptsOnce t6Repeats ∧
      (t6Refuses t5Platform).input = (t6Serves t5Platform).input ∧
      ¬ Accepts (t6Refuses t5Platform) t5Identity := by
  have run : CallRun t5Platform t6Server t6Repeats
      (t6Refuses t5Platform).after :=
    .cons (callEvent_step (by decide +kernel))
      (.cons (callEvent_step (by decide +kernel))
        (.cons (callEvent_step (by decide +kernel)) (.nil _)))
  have guarded :=
    acceptsOnce_unless_room t5Platform t6ServerParams t6Server
      (t6Refuses t5Platform).after t6Repeats ⟨zeroBuffers, rfl⟩ run
  refine ⟨guarded.1 ?_, rfl, ?_⟩
  · intro left event middle later right identity split accepts delivers
    rcases t6Repeats_pairs split with ⟨rfl, rfl⟩ | rfl
    · obtain ⟨_, _, _, first, named, _⟩ := accepts
      obtain ⟨_, _, second, again⟩ := delivers
      cases first
      cases second
      have different :
          requestIdentity t5OscoreRequest ≠
            requestIdentity t1OscoreRequest := by
        decide
      exact absurd (named.trans again.symm) different
    · obtain ⟨_, _, called, named⟩ := delivers
      cases called
      have isT5 : requestIdentity t5OscoreRequest = .ok t5Identity := by
        decide
      cases named.symm.trans isT5
      exact t6Refuses_full
  · refine
      (guarded.2 ?_ [] (t6Serves t5Platform) [t6Switches t5Platform]
        (t6Refuses t5Platform) [] t5Identity rfl t6Serves_accepts rfl).mpr
        t6Refuses_full
    intro event member _
    simp only [t6Repeats, List.mem_cons, List.not_mem_nil, or_false] at member
    rcases member with rfl | rfl | rfl
    · exact ⟨by decide +kernel, by decide +kernel, by decide +kernel⟩
    · exact ⟨by decide +kernel, by decide +kernel, by decide +kernel⟩
    · exact ⟨by decide +kernel, by decide +kernel, by decide +kernel⟩

private def t1ServesAgain : CallEvent :=
  callEvent t1Platform t1Serves.after (.oscore2coap t1OscoreRequest 64)

private theorem t1Serves_accepts : Accepts t1Serves (t1Identity [0]) :=
  ⟨_, _, t1Request, rfl, rfl, rfl⟩

private theorem t1ServesAgain_accepts :
    Accepts t1ServesAgain (t1Identity [0]) :=
  ⟨_, _, t1Request, rfl, rfl, rfl⟩

/-- The server of test vector T1 accepts one request twice. -/
theorem request_acceptedTwice :
    ¬ ∀ (platform : Platform) (params : OscoreInitParams)
        (first last : Context) (events : List CallEvent),
        params.devType = .server → Initialised platform params first →
        CallRun platform first events last →
        (∀ event ∈ events, ∃ input capacity,
          event.input = .oscore2coap input capacity) →
        AcceptsOnce events := by
  intro once
  have run : CallRun t1Platform t1Server [t1Serves, t1ServesAgain]
      t1ServesAgain.after :=
    .cons t1Serves_step (.cons (callEvent_step (by decide +kernel)) (.nil _))
  have deliveries : ∀ event ∈ [t1Serves, t1ServesAgain],
      ∃ input capacity, event.input = .oscore2coap input capacity := by
    intro event member
    rcases List.mem_cons.mp member with rfl | later
    · exact ⟨_, _, rfl⟩
    · rw [List.mem_singleton.mp later]
      exact ⟨_, _, rfl⟩
  exact
    once t1Platform t1ServerParams t1Server t1ServesAgain.after _ rfl
      t1Server_initialised run deliveries [] t1Serves [] t1ServesAgain []
      (t1Identity [0]) rfl t1Serves_accepts t1ServesAgain_accepts

end UoscoreUedhoc.Oscore

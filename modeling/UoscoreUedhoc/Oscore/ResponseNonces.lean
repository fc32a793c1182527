import UoscoreUedhoc.Oscore.RejectedPackets
import UoscoreUedhoc.Oscore.ReplayProtection

/-!
# Nonces of responses

A response is encrypted under the nonce that `context_update` left in the
single request-response context.  That is the nonce of the request it took over
last, whether or not the request was accepted and whether or not it was
answered before.  Two responses therefore share their nonce exactly when the
requests taken over last before them do.
-/

namespace UoscoreUedhoc.Oscore

open UoscoreUedhoc
open UoscoreUedhoc.PaddedDigits
open UoscoreUedhoc.Runs
open Update

variable {platform : Platform} {event : CallEvent}
  {piv kidContext : Bytes}

/-! ## Requests that are taken over -/

/-- `context_update` takes over the Partial IV and the KID context of a
request. -/
def TakesOver (platform : Platform) (event : CallEvent)
    (piv kidContext : Bytes) : Prop :=
  ∃ input capacity packet option first newPiv newKidContext between,
    event.input = .oscore2coap input capacity ∧
      ReachesUpdate event.before input packet option first newPiv
        newKidContext ∧
      exec (serverUpdate platform newPiv newKidContext) event.before =
        (.ok (), between) ∧
      piv = newPiv.content ∧ kidContext = newKidContext.content

/-- The step takes over some request. -/
def TakesRequest (platform : Platform) (event : CallEvent) : Prop :=
  ∃ piv kidContext, TakesOver platform event piv kidContext

theorem TakesOver.unique {otherPiv otherKidContext : Bytes}
    (takes : TakesOver platform event piv kidContext)
    (other : TakesOver platform event otherPiv otherKidContext) :
    piv = otherPiv ∧ kidContext = otherKidContext := by
  obtain ⟨input, capacity, _, _, _, _, _, _, called, reaches, _, rfl, rfl⟩ :=
    takes
  obtain ⟨input', capacity', _, _, _, _, _, _, called', reaches', _, rfl,
    rfl⟩ := other
  rw [called] at called'
  cases called'
  obtain ⟨_, _, rfl, rfl⟩ := reaches.unique reaches'
  exact ⟨rfl, rfl⟩

/-- A request taken over leaves its nonce in the context. -/
theorem TakesOver.nonce (takes : TakesOver platform event piv kidContext)
    (step : callMachine platform event) :
    createNonce event.after.rrc.kid piv event.after.cc.commonIv =
        .ok event.after.rrc.nonce ∧
      event.after.cc.idContext = kidContext ∧
      (KeysDerived platform event.before →
        KeysDerived platform event.after) := by
  obtain ⟨input, capacity, packet, option, first, newPiv, newKidContext,
    between, called, reaches, server, rfl, rfl⟩ := takes
  obtain ⟨options, ran⟩ :=
    exec_oscore2coap_of_reaches platform capacity reaches
  rw [callMachine_oscore2coap step called] at ran
  have updated := serverUpdate_updated server
  unfold contextUpdate at ran
  simp only [exec_bind, server] at ran
  rw [exec_nonceAndAadUpdate] at ran
  cases created : createNonce between.rrc.kid between.rrc.piv
      between.cc.commonIv with
  | error fault =>
      rw [created] at ran
      obtain ⟨failed, _⟩ := Prod.mk.inj ran
      cases fault with
      | err code =>
          exact absurd created createNonce_ne_err
      | undefinedBehaviour =>
          exact absurd failed step.2
  | ok nonce =>
      rw [created] at ran
      obtain ⟨aad, written⟩ : ∃ aad,
          event.after = between.setNonceAndAad nonce aad ∨
            event.after = (between.setNonceAndAad nonce aad).recordPiv
              first := by
        by_cases fits :
            (requestAad platform.toCborEncoder between).length ≤
              between.rrc.aad.length
        · simp only [if_pos fits] at ran
          have final :=
            afterUpdate_context platform packet first capacity
              (between.setNonceAndAad nonce
                (requestAad platform.toCborEncoder between))
          rw [← ran] at final
          exact ⟨_, final⟩
        · simp only [if_neg fits] at ran
          exact ⟨_, Or.inl (Prod.mk.inj ran).2⟩
      have nonceBuilt :
          createNonce between.rrc.kid newPiv.content between.cc.commonIv =
            .ok nonce := by
        rw [← updated.piv]
        exact created
      rcases written with same | same
      · rw [same]
        exact
          ⟨nonceBuilt, updated.idContext, fun keys =>
            ⟨(updated.keys keys).commonIv, (updated.keys keys).senderKey,
              (updated.keys keys).recipientKey⟩⟩
      · rw [same]
        exact
          ⟨nonceBuilt, updated.idContext, fun keys =>
            ⟨(updated.keys keys).commonIv, (updated.keys keys).senderKey,
              (updated.keys keys).recipientKey⟩⟩

/-- A KID context is taken over entirely or, where the keys stay those of the
ID context, not at all. -/
theorem kidContextUpdate_failed {newKidContext : ByteArrayView}
    {c after : Context} {fault : Fault}
    (failed :
      exec (kidContextUpdate platform newKidContext) c =
        (.error fault, after))
    (keys : KeysDerived platform after) :
    after.cc = c.cc := by
  unfold kidContextUpdate at failed
  simp only [exec_lift_bind, exec_modify_bind, exec_get_bind, exec_modify]
    at failed
  rw [andThen_eq_error] at failed
  rcases failed with ⟨_, rfl⟩ | ⟨_, _, failed⟩
  · rfl
  rw [andThen_eq_error] at failed
  rcases failed with ⟨_, rfl⟩ | ⟨_, _, failed⟩
  · rfl
  -- the ID context is written: a derivation that fails would not fail after
  rw [andThen_eq_error] at failed
  rcases failed with ⟨refused, rfl⟩ | ⟨_, _, failed⟩
  · exact absurd (keys.commonIv.symm.trans refused) (by simp)
  rw [andThen_eq_error] at failed
  rcases failed with ⟨refused, rfl⟩ | ⟨_, _, failed⟩
  · exact absurd (keys.senderKey.symm.trans refused) (by simp)
  rw [andThen_eq_error] at failed
  rcases failed with ⟨refused, rfl⟩ | ⟨_, _, failed⟩
  · exact absurd (keys.recipientKey.symm.trans refused) (by simp)
  · cases failed

/-- Where taking over a Partial IV and a KID context fails. -/
theorem serverUpdate_eq_error {newPiv newKidContext : ByteArrayView}
    {c after : Context} {fault : Fault}
    (failed :
      exec (serverUpdate platform newPiv newKidContext) c =
        (.error fault, after)) :
    after = c ∨
      ∃ piv, after = c.setPiv piv ∨
        exec (kidContextUpdate platform newKidContext) (c.setPiv piv) =
          (.error fault, after) := by
  rw [exec_serverUpdate] at failed
  cases copied : memcpyS maxPivLen newPiv.ptr newPiv.len with
  | error other =>
      rw [copied] at failed
      exact Or.inl (Prod.mk.inj failed).2.symm
  | ok piv =>
      rw [copied] at failed
      dsimp only at failed
      refine Or.inr ⟨piv, ?_⟩
      cases compared : arrayEquals c.cc.idContext newKidContext with
      | error other =>
          rw [compared] at failed
          exact Or.inl (Prod.mk.inj failed).2.symm
      | ok same =>
          rw [compared] at failed
          cases same with
          | true =>
              cases failed
          | false =>
              exact Or.inr failed

theorem serverUpdate_failed_nonceAndAad
    {newPiv newKidContext : ByteArrayView} {c after : Context}
    {fault : Fault}
    (failed :
      exec (serverUpdate platform newPiv newKidContext) c =
        (.error fault, after)) :
    after.rrc.nonce = c.rrc.nonce ∧ after.rrc.aad = c.rrc.aad := by
  rcases serverUpdate_eq_error failed with rfl | ⟨piv, rfl | failed⟩
  · exact ⟨rfl, rfl⟩
  · exact ⟨rfl, rfl⟩
  · have kept :=
      kidContextUpdate_keeps platform newKidContext (c.setPiv piv)
    rw [failed] at kept
    exact ⟨kept.nonce, kept.aad⟩

theorem serverUpdate_failed_keys {newPiv newKidContext : ByteArrayView}
    {c after : Context} {fault : Fault}
    (failed :
      exec (serverUpdate platform newPiv newKidContext) c =
        (.error fault, after))
    (keys : KeysDerived platform after) :
    after.cc = c.cc := by
  rcases serverUpdate_eq_error failed with rfl | ⟨piv, rfl | failed⟩
  · rfl
  · rfl
  · have kept : after.cc = (c.setPiv piv).cc :=
      kidContextUpdate_failed failed keys
    exact kept

/-- Any other packet leaves the context as it is, or fails while the Partial IV
or the KID context are taken over. -/
theorem oscore2coap_not_takes_cases {input : Bytes} {capacity : Nat}
    (called : event.input = .oscore2coap input capacity)
    (step : callMachine platform event)
    (untaken : ¬ TakesRequest platform event) :
    event.after = event.before ∨
      ∃ newPiv newKidContext fault,
        exec (serverUpdate platform newPiv newKidContext) event.before =
          (.error fault, event.after) := by
  have ran := callMachine_oscore2coap step called
  by_cases reached : ∃ packet option first newPiv newKidContext,
      ReachesUpdate event.before input packet option first newPiv
        newKidContext
  · obtain ⟨packet, option, first, newPiv, newKidContext, reaches⟩ := reached
    obtain ⟨options, ran'⟩ :=
      exec_oscore2coap_of_reaches platform capacity reaches
    rw [ran] at ran'
    unfold contextUpdate at ran'
    simp only [exec_bind] at ran'
    cases server : exec (serverUpdate platform newPiv newKidContext)
        event.before with
    | mk outcome between =>
        rw [server] at ran'
        cases outcome with
        | ok done =>
            exact
              absurd
                ⟨_, _, input, capacity, packet, option, first, newPiv,
                  newKidContext, between, called, reaches, server, rfl, rfl⟩
                untaken
        | error fault =>
            obtain ⟨_, rfl⟩ := Prod.mk.inj ran'
            exact Or.inr ⟨newPiv, newKidContext, fault, server⟩
  · have unreached : ∀ packet option first newPiv newKidContext,
        ¬ ReachesUpdate event.before input packet option first newPiv
          newKidContext := by
      intro packet option first newPiv newKidContext reaches
      exact reached ⟨packet, option, first, newPiv, newKidContext, reaches⟩
    have unchanged :=
      @oscore2coap_of_not_reaches platform input capacity event.before
        unreached
    rw [ran] at unchanged
    exact Or.inl unchanged

/-- It leaves the nonce and the AAD as they are. -/
theorem oscore2coap_not_takes_nonceAndAad {input : Bytes} {capacity : Nat}
    (called : event.input = .oscore2coap input capacity)
    (step : callMachine platform event)
    (untaken : ¬ TakesRequest platform event) :
    event.after.rrc.nonce = event.before.rrc.nonce ∧
      event.after.rrc.aad = event.before.rrc.aad := by
  rcases oscore2coap_not_takes_cases called step untaken with same | failed
  · rw [same]
    exact ⟨rfl, rfl⟩
  · obtain ⟨newPiv, newKidContext, fault, failed⟩ := failed
    exact serverUpdate_failed_nonceAndAad failed

/-- And the keys, where they stay those of the ID context. -/
theorem oscore2coap_not_takes_keys {input : Bytes} {capacity : Nat}
    (called : event.input = .oscore2coap input capacity)
    (step : callMachine platform event)
    (untaken : ¬ TakesRequest platform event)
    (keys : KeysDerived platform event.after) :
    event.after.cc = event.before.cc := by
  rcases oscore2coap_not_takes_cases called step untaken with same | failed
  · rw [same]
  · obtain ⟨newPiv, newKidContext, fault, failed⟩ := failed
    exact serverUpdate_failed_keys failed keys

/-! ## The slot -/

/-- The call does not protect a request. -/
def AnswersOnly (event : CallEvent) : Prop :=
  ∀ input capacity packet, event.input = .coap2oscore input capacity →
    buf2coap input = .ok packet → isRequest packet = true →
    isMessagingLayer packet = true

/-- What the request-response context holds after a list of calls: the nonce of
the request taken over last or, before the first one, an AAD array nothing can
be encrypted with. -/
def Slot (platform : Platform) (past : List CallEvent) (c : Context) : Prop :=
  KeysDerived platform c ∧
    (((∀ event ∈ past, ¬ TakesRequest platform event) ∧
        c.rrc.aad.length = maxAadLen) ∨
      ∃ event piv,
        LastWhere (TakesRequest platform) past event ∧
          TakesOver platform event piv c.cc.idContext ∧
          createNonce c.rrc.kid piv c.cc.commonIv = .ok c.rrc.nonce)

theorem slot_of_unchanged {past : List CallEvent} {before after : Context}
    (slot : Slot platform past before)
    (untaken : ¬ TakesRequest platform event)
    (keys : KeysDerived platform after) (cc : after.cc = before.cc)
    (kid : after.rrc.kid = before.rrc.kid)
    (nonce : after.rrc.nonce = before.rrc.nonce)
    (aad : after.rrc.aad = before.rrc.aad) :
    Slot platform (past ++ [event]) after := by
  refine ⟨keys, ?_⟩
  rw [cc, kid, nonce, aad]
  rcases slot.2 with ⟨none, initial⟩ | ⟨taken, piv, last, takes, created⟩
  · refine Or.inl ⟨?_, initial⟩
    intro other member
    rcases List.mem_append.mp member with earlier | same
    · exact none other earlier
    · rw [List.mem_singleton.mp same]
      exact untaken
  · exact Or.inr ⟨taken, piv, last.concat untaken, takes, created⟩

theorem callMachine_answers_unchanged {input : Bytes} {capacity : Nat}
    (step : callMachine platform event) (answers : AnswersOnly event)
    (called : event.input = .coap2oscore input capacity) :
    event.after = event.before := by
  obtain ⟨outcome, ran, _⟩ := callMachine_coap2oscore step called
  have unchanged :=
    @coap2oscore_of_not_request platform input capacity event.before
      fun packet parsed request =>
        answers input capacity packet called parsed request
  rwa [ran] at unchanged

theorem slot_step {past : List CallEvent}
    (step : callMachine platform event) (answers : AnswersOnly event)
    (derives :
      KeysDerived platform event.before → KeysDerived platform event.after)
    (slot : Slot platform past event.before) :
    Slot platform (past ++ [event]) event.after := by
  cases called : event.input with
  | coap2oscore input capacity =>
      have unchanged := callMachine_answers_unchanged step answers called
      have untaken : ¬ TakesRequest platform event := by
        intro takes
        obtain ⟨_, _, _, _, _, _, _, _, _, _, called', _⟩ := takes
        rw [called] at called'
        cases called'
      rw [unchanged]
      exact slot_of_unchanged slot untaken slot.1 rfl rfl rfl rfl
  | oscore2coap input capacity =>
      by_cases taken : TakesRequest platform event
      · obtain ⟨piv, kidContext, takes⟩ := taken
        obtain ⟨created, rfl, _⟩ := takes.nonce step
        exact
          ⟨derives slot.1,
            Or.inr
              ⟨event, piv, lastWhere_concat_self ⟨_, _, takes⟩, takes,
                created⟩⟩
      · have keys := derives slot.1
        have cc := oscore2coap_not_takes_keys called step taken keys
        obtain ⟨nonce, aad⟩ :=
          oscore2coap_not_takes_nonceAndAad called step taken
        have kept := callRun_oscore2coap_keeps step ⟨_, _, called⟩
        exact slot_of_unchanged slot taken keys cc kept.kid nonce aad

/-! ## Responses -/

/-- The call encrypts a response. -/
def Responds (event : CallEvent) : Prop :=
  ∃ packet, Encrypts event packet ∧ isRequest packet = false

/-- No two responses of a run are encrypted under the same key and nonce. -/
def UniqueNonces (events : List CallEvent) : Prop :=
  ∀ left event middle later right,
    events = left ++ event :: (middle ++ later :: right) →
    Responds event → Responds later →
    (event.after.sc.senderKey, event.after.rrc.nonce) ≠
      (later.after.sc.senderKey, later.after.rrc.nonce)

/-- The requests taken over last before two responses differ in the KID context
or in the value of the Partial IV. -/
def DistinctRequests (platform : Platform) (events : List CallEvent) : Prop :=
  ∀ left event middle later right request laterRequest piv kidContext
    laterPiv laterKidContext,
    events = left ++ event :: (middle ++ later :: right) →
    Responds event → Responds later →
    LastWhere (TakesRequest platform) left request →
    LastWhere (TakesRequest platform) (left ++ event :: middle)
      laterRequest →
    TakesOver platform request piv kidContext →
    TakesOver platform laterRequest laterPiv laterKidContext →
    ¬ (kidContext = laterKidContext ∧
        padLeft maxPivLen piv = padLeft maxPivLen laterPiv)

/-- The slot a response finds is that of the request taken over last. -/
theorem responds_slot {params : OscoreInitParams} {first : Context}
    {past : List CallEvent}
    (initialised : Initialised platform params first)
    (run : CallRun platform first past event.before)
    (pastAnswers : ∀ earlier ∈ past, AnswersOnly earlier)
    (derives : ∀ earlier ∈ past, KeysDerived platform earlier.before →
      KeysDerived platform earlier.after)
    (step : callMachine platform event) (responds : Responds event) :
    event.after = event.before ∧ KeysDerived platform event.before ∧
      ∃ request piv,
        LastWhere (TakesRequest platform) past request ∧
          TakesOver platform request piv event.before.cc.idContext ∧
          createNonce event.before.rrc.kid piv event.before.cc.commonIv =
            .ok event.before.rrc.nonce := by
  obtain ⟨buffers, done⟩ := initialised
  have initial := oscoreContextInit_initial done
  have slot : Slot platform past event.before := by
    apply run.history
    · refine ⟨initial.keys, Or.inl ⟨?_, initial.aad_length⟩⟩
      intro other member
      cases member
    · intro earlier other member otherStep
      exact slot_step otherStep (pastAnswers other member) (derives other member)
  obtain ⟨packet, encrypts, response⟩ := responds
  obtain ⟨oscorePacket, protectedPacket⟩ := encrypts.isProtected step
  have unchanged := protectedPacket.response_context response
  refine ⟨unchanged, slot.1, ?_⟩
  rcases slot.2 with ⟨_, unwritten⟩ | taken
  · obtain ⟨plaintext, aad, built, _⟩ := protectedPacket.aead_call
    rw [unchanged] at built
    obtain ⟨short, _⟩ := coseAad_eq_ok.mp built
    rw [unwritten] at short
    exact absurd short (by decide)
  · exact taken

/-- Two responses have the same key and nonce exactly when the requests taken
over last before them have one KID context and one value of the Partial IV. -/
theorem response_nonce_eq_iff {left right : Context}
    {leftPiv rightPiv : Bytes}
    (same : SameParameters left right)
    (leftKeys : KeysDerived platform left)
    (rightKeys : KeysDerived platform right)
    (separated : left.sc.senderKey = right.sc.senderKey →
      left.cc.idContext = right.cc.idContext)
    (leftCreated :
      createNonce left.rrc.kid leftPiv left.cc.commonIv =
        .ok left.rrc.nonce)
    (rightCreated :
      createNonce right.rrc.kid rightPiv right.cc.commonIv =
        .ok right.rrc.nonce) :
    (left.sc.senderKey, left.rrc.nonce) =
        (right.sc.senderKey, right.rrc.nonce) ↔
      left.cc.idContext = right.cc.idContext ∧
        padLeft maxPivLen leftPiv = padLeft maxPivLen rightPiv := by
  rw [Prod.mk.injEq]
  by_cases idContext : left.cc.idContext = right.cc.idContext
  · obtain ⟨commonIv, senderKey, _⟩ := leftKeys.unique rightKeys same idContext
    rw [commonIv, same.kid] at rightCreated
    rw [createNonce_eq_iff leftCreated rightCreated]
    simp [idContext, senderKey]
  · constructor
    · intro reused
      exact absurd (separated reused.1) idContext
    · intro reused
      exact absurd reused.1 idContext

/-- The same for two responses of a run. -/
theorem responses_nonce_eq_iff {params : OscoreInitParams}
    {first last : Context} {events left middle right : List CallEvent}
    {later : CallEvent}
    (initialised : Initialised platform params first)
    (run : CallRun platform first events last)
    (answers : ∀ event ∈ events, AnswersOnly event)
    (derives : ∀ event ∈ events, KeysDerived platform event.before →
      KeysDerived platform event.after)
    (separated : ∀ event ∈ events, ∀ other ∈ events,
      event.before.sc.senderKey = other.before.sc.senderKey →
      event.before.cc.idContext = other.before.cc.idContext)
    (split : events = left ++ event :: (middle ++ later :: right))
    (responds : Responds event) (laterResponds : Responds later) :
    ∃ request piv kidContext laterRequest laterPiv laterKidContext,
      LastWhere (TakesRequest platform) left request ∧
        TakesOver platform request piv kidContext ∧
        LastWhere (TakesRequest platform) (left ++ event :: middle)
          laterRequest ∧
        TakesOver platform laterRequest laterPiv laterKidContext ∧
        ((event.after.sc.senderKey, event.after.rrc.nonce) =
            (later.after.sc.senderKey, later.after.rrc.nonce) ↔
          kidContext = laterKidContext ∧
            padLeft maxPivLen piv = padLeft maxPivLen laterPiv) := by
  have shape : events = (left ++ event :: middle) ++ later :: right := by
    rw [split]
    simp
  have laterMember : later ∈ events := by
    rw [shape]
    simp
  have pastMember : ∀ other ∈ left ++ event :: middle, other ∈ events := by
    intro other member
    rw [shape]
    exact List.mem_append_left _ member
  have eventMember : event ∈ events := pastMember event (by simp)
  have leftMember : ∀ other ∈ left, other ∈ events := fun other member =>
    pastMember other (List.mem_append_left _ member)
  obtain ⟨leftRun, step, _⟩ := Run.split_iff.mp (split ▸ run)
  obtain ⟨pastRun, laterStep, _⟩ := Run.split_iff.mp (shape ▸ run)
  obtain ⟨unchanged, keys, request, piv, isLast, takes, created⟩ :=
    responds_slot initialised leftRun
      (fun other member => answers other (leftMember other member))
      (fun other member => derives other (leftMember other member))
      step responds
  obtain ⟨laterUnchanged, laterKeys, laterRequest, laterPiv, laterLast,
    laterTakes, laterCreated⟩ :=
    responds_slot initialised pastRun
      (fun other member => answers other (pastMember other member))
      (fun other member => derives other (pastMember other member))
      laterStep laterResponds
  have same : SameParameters event.before later.before := by
    obtain ⟨_, _, rest⟩ := Run.split_iff.mp pastRun
    rw [unchanged] at rest
    exact CallRun.sameParameters rest
  refine
    ⟨request, piv, _, laterRequest, laterPiv, _, isLast, takes, laterLast,
      laterTakes, ?_⟩
  rw [unchanged, laterUnchanged]
  exact
    response_nonce_eq_iff same keys laterKeys
      (separated event eventMember later laterMember) created laterCreated

/-- The responses of a run have different keys or nonces exactly when the
requests taken over last before them are distinct. -/
theorem uniqueNonces_iff_distinctRequests (platform : Platform)
    (params : OscoreInitParams) (first last : Context)
    (events : List CallEvent)
    (initialised : Initialised platform params first)
    (run : CallRun platform first events last)
    (answers : ∀ event ∈ events, AnswersOnly event)
    (derives : ∀ event ∈ events, KeysDerived platform event.before →
      KeysDerived platform event.after)
    (separated : ∀ event ∈ events, ∀ other ∈ events,
      event.before.sc.senderKey = other.before.sc.senderKey →
      event.before.cc.idContext = other.before.cc.idContext) :
    UniqueNonces events ↔ DistinctRequests platform events := by
  constructor
  · intro unique left event middle later right request laterRequest piv
      kidContext laterPiv laterKidContext split responds laterResponds isLast
      laterLast takes laterTakes reused
    obtain ⟨request', piv', kidContext', laterRequest', laterPiv',
      laterKidContext', isLast', takes', laterLast', laterTakes', same⟩ :=
      responses_nonce_eq_iff initialised run answers derives separated split
        responds laterResponds
    obtain rfl := isLast.unique isLast'
    obtain rfl := laterLast.unique laterLast'
    obtain ⟨rfl, rfl⟩ := takes.unique takes'
    obtain ⟨rfl, rfl⟩ := laterTakes.unique laterTakes'
    exact
      unique left event middle later right split responds laterResponds
        (same.mpr reused)
  · intro distinct left event middle later right split responds laterResponds
      reused
    obtain ⟨request, piv, kidContext, laterRequest, laterPiv, laterKidContext,
      isLast, takes, laterLast, laterTakes, same⟩ :=
      responses_nonce_eq_iff initialised run answers derives separated split
        responds laterResponds
    exact
      distinct left event middle later right request laterRequest piv
        kidContext laterPiv laterKidContext split responds laterResponds
        isLast laterLast takes laterTakes (same.mp reused)

/-- Two requests, each with its response behind it, on the server of test
vector T1. -/
private def t1Exchanges : List CallEvent :=
  [t1Serves, t1Answers, t1ServesNext, t1AnswersNext]

private theorem t1Response_answersOnly {capacity : Nat}
    (called : event.input = .coap2oscore t1Response capacity ∨
      event.input = .coap2oscore t1OtherResponse capacity) :
    AnswersOnly event := by
  intro input capacity' packet called' parsed request
  rw [called'] at called
  rcases called with called | called
  · cases called
    cases parsed
    cases request
  · cases called
    cases parsed
    cases request

private theorem oscore2coap_answersOnly {input : Bytes} {capacity : Nat}
    (called : event.input = .oscore2coap input capacity) :
    AnswersOnly event := by
  intro input' capacity' packet called'
  rw [called] at called'
  cases called'

private theorem not_responds_of_oscore2coap {input : Bytes} {capacity : Nat}
    (called : event.input = .oscore2coap input capacity) :
    ¬ Responds event := by
  intro responds
  obtain ⟨_, ⟨_, _, _, called', _⟩, _⟩ := responds
  rw [called] at called'
  cases called'

private theorem t1Answers_responds : Responds t1Answers :=
  ⟨_, ⟨_, _, _, rfl, rfl, rfl, rfl⟩, rfl⟩

private theorem t1AnswersNext_responds : Responds t1AnswersNext :=
  ⟨_,
    ⟨_, _,
      [0x60, 0x44, 0, 1, 0x90, 0xFF, 0x47, 0x43, 0x32, 0x29, 0xCD, 0xD7, 0x7D,
        0x29, 0xF8, 0x92, 0x83, 0xDD],
      rfl, by decide +kernel, rfl, rfl⟩,
    rfl⟩

private theorem t1Serves_takes : TakesOver t1Platform t1Serves [0] [] :=
  ⟨t1OscoreRequest, 64, _, _, 0, _, _, _, rfl,
    ⟨rfl, rfl, rfl, ⟨⟨_, rfl, by decide +kernel⟩, rfl, rfl, rfl⟩⟩,
    Prod.ext (by decide +kernel) rfl, rfl, rfl⟩

private theorem t1ServesNext_takes :
    TakesOver t1Platform t1ServesNext [1] [] :=
  ⟨t1NextOscoreRequest, 64, _, _, 1, _, _, _, rfl,
    ⟨rfl, rfl, rfl, ⟨⟨_, rfl, by decide +kernel⟩, rfl, rfl, rfl⟩⟩,
    Prod.ext (by decide +kernel) rfl, rfl, rfl⟩

private theorem t1Exchanges_responses {left middle right : List CallEvent}
    {later : CallEvent}
    (split : t1Exchanges = left ++ event :: (middle ++ later :: right))
    (responds : Responds event) (laterResponds : Responds later) :
    left = [t1Serves] ∧ event = t1Answers ∧ middle = [t1ServesNext] := by
  have served : ∀ {other : CallEvent}, other = t1Serves ∨ other = t1ServesNext →
      ¬ Responds other := by
    intro other isServed
    rcases isServed with rfl | rfl
    · exact not_responds_of_oscore2coap rfl
    · exact not_responds_of_oscore2coap rfl
  match left with
  | [] =>
      obtain ⟨rfl, _⟩ := List.cons.inj split
      exact absurd responds (served (Or.inl rfl))
  | [_] =>
      simp only [t1Exchanges, List.cons_append, List.nil_append,
        List.cons.injEq] at split
      obtain ⟨rfl, rfl, behind⟩ := split
      match middle with
      | [] =>
          obtain ⟨rfl, _⟩ := List.cons.inj behind
          exact absurd laterResponds (served (Or.inr rfl))
      | [_] =>
          obtain ⟨rfl, _⟩ := List.cons.inj behind
          exact ⟨rfl, rfl, rfl⟩
      | _ :: _ :: _ =>
          have lengths := congrArg List.length behind
          simp at lengths
  | [_, _] =>
      obtain ⟨rfl, _⟩ :=
        List.cons.inj (List.cons.inj (List.cons.inj split).2).2
      exact absurd responds (served (Or.inr rfl))
  | _ :: _ :: _ :: rest =>
      have lengths := congrArg List.length split
      simp only [t1Exchanges, List.length_cons, List.length_append,
        List.length_nil] at lengths
      omega

private theorem t1Exchanges_distinct :
    DistinctRequests t1Platform t1Exchanges := by
  intro left event middle later right request laterRequest piv kidContext
    laterPiv laterKidContext split responds laterResponds isLast laterLast
    takes laterTakes reused
  obtain ⟨rfl, rfl, rfl⟩ :=
    t1Exchanges_responses split responds laterResponds
  have served : LastWhere (TakesRequest t1Platform) [t1Serves] t1Serves :=
    @lastWhere_concat_self _ _ [] _ ⟨_, _, t1Serves_takes⟩
  have servedNext : LastWhere (TakesRequest t1Platform)
      [t1Serves, t1Answers, t1ServesNext] t1ServesNext :=
    @lastWhere_concat_self _ _ [t1Serves, t1Answers] _
      ⟨_, _, t1ServesNext_takes⟩
  obtain rfl := isLast.unique served
  obtain rfl := laterLast.unique servedNext
  obtain ⟨rfl, rfl⟩ := takes.unique t1Serves_takes
  obtain ⟨rfl, rfl⟩ := laterTakes.unique t1ServesNext_takes
  exact absurd reused.2 (by decide)

/-- Two requests in a row, each answered, on the server of test vector T1: the
two responses have different nonces. -/
theorem uniqueNonces_t1 :
    Responds t1Answers ∧ Responds t1AnswersNext ∧ UniqueNonces t1Exchanges := by
  have keys : ∀ event ∈ t1Exchanges,
      KeysDerived t1Platform event.before →
      KeysDerived t1Platform event.after := by
    intro event member _
    simp only [t1Exchanges, List.mem_cons, List.not_mem_nil, or_false] at member
    rcases member with rfl | rfl | rfl | rfl
    · exact ⟨by decide +kernel, by decide +kernel, by decide +kernel⟩
    · exact ⟨by decide +kernel, by decide +kernel, by decide +kernel⟩
    · exact ⟨by decide +kernel, by decide +kernel, by decide +kernel⟩
    · exact ⟨by decide +kernel, by decide +kernel, by decide +kernel⟩
  have answers : ∀ event ∈ t1Exchanges, AnswersOnly event := by
    intro event member
    simp only [t1Exchanges, List.mem_cons, List.not_mem_nil, or_false] at member
    rcases member with rfl | rfl | rfl | rfl
    · exact oscore2coap_answersOnly rfl
    · exact t1Response_answersOnly (Or.inl rfl)
    · exact oscore2coap_answersOnly rfl
    · exact t1Response_answersOnly (Or.inl rfl)
  have idContext : ∀ event ∈ t1Exchanges, event.before.cc.idContext = [] := by
    intro event member
    simp only [t1Exchanges, List.mem_cons, List.not_mem_nil, or_false] at member
    rcases member with rfl | rfl | rfl | rfl
    · rfl
    · decide +kernel
    · decide +kernel
    · decide +kernel
  have run : CallRun t1Platform t1Server t1Exchanges t1AnswersNext.after :=
    .cons t1Serves_step (.cons t1Answers_step
      (.cons t1ServesNext_step (.cons t1AnswersNext_step (.nil _))))
  refine ⟨t1Answers_responds, t1AnswersNext_responds, ?_⟩
  refine
    (uniqueNonces_iff_distinctRequests t1Platform t1ServerParams t1Server
      t1AnswersNext.after t1Exchanges t1Server_initialised run answers keys
      ?_).mpr t1Exchanges_distinct
  intro event member other otherMember _
  rw [idContext event member, idContext other otherMember]

/-- Each response of a run answers an accepted request before it, and no two
responses answer the same one. -/
def AnsweredOnce (events : List CallEvent) : Prop :=
  ∃ answered : Nat → Nat,
    (∀ position event, events[position]? = some event → Responds event →
      answered position < position ∧
        ∃ request identity,
          events[answered position]? = some request ∧
            Accepts request identity) ∧
      ∀ left right event other, events[left]? = some event →
        events[right]? = some other → Responds event → Responds other →
        answered left = answered right → left = right

private def t1AnswersPending : CallEvent :=
  callEvent t1Platform t1ServesPending.after (.coap2oscore t1Response 64)

private def t1AnswersAgain : CallEvent :=
  callEvent t1Platform t1AnswersPending.after (.coap2oscore t1OtherResponse 64)

/-- Two requests and then two responses. -/
private def t1Pending : List CallEvent :=
  [t1Serves, t1ServesPending, t1AnswersPending, t1AnswersAgain]

private theorem t1Pending_request {position : Nat} {event : CallEvent}
    (found : t1Pending[position]? = some event) (responds : Responds event) :
    position = 2 ∨ position = 3 := by
  match position with
  | 0 =>
      cases found
      exact absurd responds (not_responds_of_oscore2coap rfl)
  | 1 =>
      cases found
      exact absurd responds (not_responds_of_oscore2coap rfl)
  | 2 =>
      exact Or.inl rfl
  | 3 =>
      exact Or.inr rfl
  | position + 4 =>
      cases found

private theorem t1Pending_answeredOnce : AnsweredOnce t1Pending := by
  refine ⟨fun position => position - 2, ?_, ?_⟩
  · intro position event found responds
    rcases t1Pending_request found responds with rfl | rfl
    · exact
        ⟨by decide, t1Serves, ⟨[], [], [0]⟩, rfl, _, _, _, rfl, rfl, rfl⟩
    · refine
        ⟨by decide, t1ServesPending, ⟨[], [], [1]⟩, rfl, _, _, t1Request, rfl,
          rfl, ?_⟩
      decide +kernel
  · intro left right event other found otherFound responds otherResponds same
    rcases t1Pending_request found responds with rfl | rfl
    · rcases t1Pending_request otherFound otherResponds with rfl | rfl
      · rfl
      · cases same
    · rcases t1Pending_request otherFound otherResponds with rfl | rfl
      · cases same
      · rfl

/-- Two requests wait for their responses on the server of test vector T1, and
both responses are encrypted under the nonce of the second one. -/
theorem response_nonce_reused :
    ¬ ∀ (platform : Platform) (params : OscoreInitParams)
        (first last : Context) (events : List CallEvent),
        params.devType = .server → Initialised platform params first →
        CallRun platform first events last →
        (∀ event ∈ events, AnswersOnly event) → AnsweredOnce events →
        UniqueNonces events := by
  intro unique
  have run : CallRun t1Platform t1Server t1Pending t1AnswersAgain.after :=
    .cons t1Serves_step
      (.cons t1ServesPending_step
        (.cons (callEvent_step (by decide +kernel))
          (.cons (callEvent_step (by decide +kernel)) (.nil _))))
  have answers : ∀ event ∈ t1Pending, AnswersOnly event := by
    intro event member
    simp only [t1Pending, List.mem_cons, List.not_mem_nil, or_false] at member
    rcases member with rfl | rfl | rfl | rfl
    · exact oscore2coap_answersOnly rfl
    · exact oscore2coap_answersOnly rfl
    · exact t1Response_answersOnly (Or.inl rfl)
    · exact t1Response_answersOnly (Or.inr rfl)
  have reused :
      (t1AnswersPending.after.sc.senderKey, t1AnswersPending.after.rrc.nonce) =
        (t1AnswersAgain.after.sc.senderKey, t1AnswersAgain.after.rrc.nonce) := by
    decide +kernel
  have responds : Responds t1AnswersPending :=
    ⟨_, ⟨_, _, _, rfl, rfl, rfl, rfl⟩, rfl⟩
  have respondsAgain : Responds t1AnswersAgain :=
    ⟨_, ⟨_, _, _, rfl, rfl, rfl, rfl⟩, rfl⟩
  exact
    unique t1Platform t1ServerParams t1Server t1AnswersAgain.after t1Pending
      rfl t1Server_initialised run answers t1Pending_answeredOnce
      [t1Serves, t1ServesPending] t1AnswersPending [] t1AnswersAgain [] rfl
      responds respondsAgain reused

end UoscoreUedhoc.Oscore

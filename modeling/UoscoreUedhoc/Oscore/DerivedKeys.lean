import UoscoreUedhoc.Oscore.Calls

/-!
# Derived keys

`context_update` overwrites the ID context before it derives the Common IV and
the keys from it.  The new ID context is never longer than the one before, so
its `info` structures fit into their buffer like those of the initialisation,
and none of the derivations fails half-way.
-/

namespace UoscoreUedhoc.Oscore

open UoscoreUedhoc
open UoscoreUedhoc.Runs
open Update

/-! ## Derivations from shorter ID contexts -/

/-- `hkdf_sha_256` always succeeds, with this result. -/
def HkdfTotal (platform : Platform)
    (hkdf : Bytes → Bytes → Bytes → Nat → Bytes) : Prop :=
  ∀ secret salt info outLen,
    platform.hkdfSha256 secret salt info outLen =
      some (hkdf secret salt info outLen)

theorem hkdfInfo_length_le {cbor : CborEncoder}
    (lengths : cbor.LengthsMonotone) {shorter longer : Bytes}
    (shorterLe : shorter.length ≤ longer.length)
    (id : Bytes) (aeadAlg : AeadAlgorithm) (type : DeriveType) :
    (hkdfInfo cbor id shorter aeadAlg type).length ≤
      (hkdfInfo cbor id longer aeadAlg type).length := by
  have field :
      (if shorter.length = 0 then cbor.nil else cbor.bstr shorter).length ≤
        (if longer.length = 0 then cbor.nil
          else cbor.bstr longer).length := by
    by_cases longerEmpty : longer.length = 0
    · rw [if_pos longerEmpty, if_pos (by omega)]
    · rw [if_neg longerEmpty]
      by_cases shorterEmpty : shorter.length = 0
      · rw [if_pos shorterEmpty]
        exact lengths.nil longer
      · rw [if_neg shorterEmpty]
        exact lengths.bstr shorterLe
  unfold hkdfInfo CborEncoder.list
  simp only [List.length_append, List.length_cons, List.length_nil,
    List.flatten_cons, List.flatten_nil]
  omega

theorem derive_eq_ok {platform : Platform}
    {hkdf : Bytes → Bytes → Bytes → Nat → Bytes}
    (total : HkdfTotal platform hkdf) {cc : CommonContext} {id out : Bytes}
    {type : DeriveType} {outLen : Nat} :
    derive platform cc id type outLen = .ok out ↔
      let info :=
        hkdfInfo platform.toCborEncoder id cc.idContext cc.aeadAlg type
      info.length ≤ maxInfoLen ∧ cc.kdf = .oscoreSha256 ∧
        out = hkdf cc.masterSecret cc.masterSalt info outLen := by
  unfold derive oscoreCreateHkdfInfo
  by_cases fits :
      (hkdfInfo platform.toCborEncoder id cc.idContext cc.aeadAlg
        type).length ≤ maxInfoLen
  · rw [if_pos fits, outcome_ok_bind]
    cases kdf : cc.kdf with
    | oscoreSha256 =>
        dsimp only
        rw [tryExpect_eq_ok, total]
        simp [fits, eq_comm]
    | other value =>
        simp [fail]
  · rw [if_neg fits]
    simp [fits, fail]

/-- What a context derives, it also derives from a shorter ID context. -/
theorem derive_shorter {platform : Platform}
    {hkdf : Bytes → Bytes → Bytes → Nat → Bytes}
    (total : HkdfTotal platform hkdf)
    (lengths : platform.toCborEncoder.LengthsMonotone)
    {left right : CommonContext} {id out : Bytes} {type : DeriveType}
    {outLen : Nat} (derived : derive platform left id type outLen = .ok out)
    (aeadAlg : right.aeadAlg = left.aeadAlg) (kdf : right.kdf = left.kdf)
    (shorter : right.idContext.length ≤ left.idContext.length) :
    ∃ rightOut, derive platform right id type outLen = .ok rightOut := by
  obtain ⟨fits, isSha256, _⟩ := (derive_eq_ok total).mp derived
  refine
    ⟨_, (derive_eq_ok total).mpr ⟨?_, kdf.trans isSha256, rfl⟩⟩
  rw [aeadAlg]
  exact
    (hkdfInfo_length_le lengths shorter id left.aeadAlg type).trans fits

/-- Keys for one ID context show that those for a shorter one can be
derived. -/
theorem KeysDerived.shorter {platform : Platform}
    {hkdf : Bytes → Bytes → Bytes → Nat → Bytes}
    (total : HkdfTotal platform hkdf)
    (lengths : platform.toCborEncoder.LengthsMonotone) {c : Context}
    (keys : KeysDerived platform c) {idContext : Bytes}
    (shorter : idContext.length ≤ c.cc.idContext.length) :
    ∃ commonIv senderKey recipientKey,
      deriveCommonIv platform { c.cc with idContext } = .ok commonIv ∧
        deriveSenderKey platform { c.cc with idContext, commonIv }
          c.sc.senderId = .ok senderKey ∧
        deriveRecipientKey platform { c.cc with idContext, commonIv }
          c.rc.recipientId = .ok recipientKey := by
  obtain ⟨commonIv, ivDerived⟩ :=
    @derive_shorter platform hkdf total lengths c.cc { c.cc with idContext }
      _ _ _ _ keys.commonIv rfl rfl shorter
  obtain ⟨senderKey, senderDerived⟩ :=
    @derive_shorter platform hkdf total lengths c.cc
      { c.cc with idContext, commonIv } _ _ _ _ keys.senderKey rfl rfl shorter
  obtain ⟨recipientKey, recipientDerived⟩ :=
    @derive_shorter platform hkdf total lengths c.cc
      { c.cc with idContext, commonIv } _ _ _ _ keys.recipientKey rfl rfl
      shorter
  exact
    ⟨commonIv, senderKey, recipientKey, ivDerived, senderDerived,
      recipientDerived⟩

/-! ## The arrays of the request-response context -/

/-- The KID and the KID context lie within their buffers. -/
structure IdsFit (c : Context) : Prop where
  kid : c.rrc.kid.length ≤ maxKidLen
  kidContext : c.rrc.kidContext.length ≤ maxKidContextLen

theorem kidContextUpdate_idsFit (platform : Platform)
    (newKidContext : ByteArrayView) :
    Keeps (Preserves IdsFit) (kidContextUpdate platform newKidContext) := by
  refine kidContextUpdate_keeps_of newKidContext ?_ ?_ ?_ ?_ ?_
  · intro c kidContext short fit
    exact ⟨fit.kid, short⟩
  all_goals
    intro _ _ _ fit
    exact ⟨fit.kid, fit.kidContext⟩

/-- What taking over a KID context keeps, and does not concern the Partial IV,
the nonce, the AAD and the replay window, every call keeps. -/
theorem contextUpdate_server_keeps_of {holds : Context → Prop}
    {platform : Platform} {newKidContext : ByteArrayView}
    (pivs : ∀ c piv, holds c → holds (c.setPiv piv))
    (noncesAndAads : ∀ c nonce aad, holds c → holds (c.setNonceAndAad nonce aad))
    (kidContexts :
      Keeps (Preserves holds) (kidContextUpdate platform newKidContext))
    (options : List OCoapOption) (newPiv : ByteArrayView) :
    Keeps (Preserves holds)
      (contextUpdate platform .server options newPiv newKidContext) := by
  unfold contextUpdate
  refine Keeps.bind ?_ ?_
  · unfold serverUpdate
    refine Keeps.bind (Keeps.lift _) ?_
    intro piv
    refine Keeps.bind (Keeps.modify fun c => pivs c piv) ?_
    intro _
    refine Keeps.bind Keeps.get ?_
    intro c
    refine Keeps.bind (Keeps.lift _) ?_
    intro same
    exact Keeps.ite (Keeps.pure _) kidContexts
  · intro _ c
    obtain ⟨nonce, aad, same⟩ := nonceAndAadUpdate_same platform options c
    rw [same]
    exact noncesAndAads c nonce aad

/-- Every call keeps what protecting a packet and taking over a KID context
keep. -/
theorem CallRun.invariant_of {holds : Context → Prop} {platform : Platform}
    (protects : ∀ before after, SameKeys before after →
      holds before → holds after)
    (pivs : ∀ c piv, holds c → holds (c.setPiv piv))
    (noncesAndAads : ∀ c nonce aad, holds c → holds (c.setNonceAndAad nonce aad))
    (records : ∀ c first, holds c → holds (c.recordPiv first))
    (kidContexts : ∀ kidContext,
      Keeps (Preserves holds) (kidContextUpdate platform kidContext))
    {first last : Context} {events : List CallEvent}
    (run : CallRun platform first events last) (initial : holds first) :
    holds last := by
  refine run.invariant initial ?_
  intro event _ step before
  cases called : event.input with
  | coap2oscore input capacity =>
      exact
        protects _ _ (callRun_coap2oscore_keeps step ⟨_, _, called⟩) before
  | oscore2coap input capacity =>
      have ran := callMachine_oscore2coap step called
      have keeps : Keeps (Preserves holds) (oscore2coap platform input capacity) :=
        oscore2coap_keeps_of
          (fun options piv kidContext =>
            contextUpdate_server_keeps_of pivs noncesAndAads
              (kidContexts kidContext) options piv)
          records input capacity
      have kept := keeps event.before
      rw [ran] at kept
      exact kept before

theorem CallRun.idsFit {platform : Platform} {first last : Context}
    {events : List CallEvent} (run : CallRun platform first events last)
    (initial : IdsFit first) : IdsFit last := by
  refine
    run.invariant_of ?_ (fun _ _ fit => ⟨fit.1, fit.2⟩)
      (fun _ _ _ fit => ⟨fit.1, fit.2⟩) (fun _ _ fit => ⟨fit.1, fit.2⟩)
      (kidContextUpdate_idsFit platform) initial
  intro before after same fit
  refine ⟨?_, ?_⟩
  · rw [same.kid]
    exact fit.kid
  · rw [same.kidContext]
    exact fit.kidContext

theorem Initialised.idsFit {platform : Platform} {params : OscoreInitParams}
    {c : Context} (initialised : Initialised platform params c) :
    IdsFit c := by
  obtain ⟨buffers, done⟩ := initialised
  have lengths := reqRespContextInit_lengths (oscoreContextInit_rrc done)
  exact ⟨lengths.1, lengths.2⟩

/-! ## The keys of a context -/

theorem KeysDerived.of_sameKeys {platform : Platform} {before after : Context}
    (keys : KeysDerived platform before) (same : SameKeys before after) :
    KeysDerived platform after := by
  obtain ⟨iv, sender, recipient⟩ := keys
  refine ⟨?_, ?_, ?_⟩
  · rw [same.cc]
    exact iv
  · rw [same.cc, same.senderId, same.senderKey]
    exact sender
  · rw [same.cc, same.rc]
    exact recipient

/-- Where the keys for the new ID context can be derived, taking it over fails
before it changes the ID context or not at all. -/
theorem kidContextUpdate_keysDerived_of {platform : Platform}
    {newKidContext : ByteArrayView} {c : Context}
    (keys : KeysDerived platform c)
    (derivable :
      newKidContext.content.length ≤ c.cc.idContext.length →
      ∃ commonIv senderKey recipientKey,
        let idContext := newKidContext.content
        deriveCommonIv platform { c.cc with idContext } = .ok commonIv ∧
          deriveSenderKey platform { c.cc with idContext, commonIv }
            c.sc.senderId = .ok senderKey ∧
          deriveRecipientKey platform { c.cc with idContext, commonIv }
            c.rc.recipientId = .ok recipientKey) :
    KeysDerived platform
      (exec (kidContextUpdate platform newKidContext) c).2 := by
  by_cases copied :
      newKidContext.InBounds ∧ newKidContext.len ≤ maxKidContextLen ∧
        newKidContext.len ≤ c.cc.idContext.length
  · obtain ⟨inBounds, short, shorter⟩ := copied
    have isShorter :
        newKidContext.content.length ≤ c.cc.idContext.length :=
      (ByteArrayView.content_length inBounds).le.trans shorter
    obtain ⟨commonIv, senderKey, recipientKey, iv, sender, recipient⟩ :=
      derivable isShorter
    have updated :
        exec (kidContextUpdate platform newKidContext) c =
          (.ok (),
            c.setIdContext newKidContext.content commonIv senderKey
              recipientKey) :=
      kidContextUpdate_eq_ok.mpr
        ⟨inBounds, short, shorter, commonIv, senderKey, recipientKey, iv,
          sender, recipient, rfl⟩
    rw [updated]
    exact ⟨iv, sender, recipient⟩
  · unfold kidContextUpdate
    rw [exec_lift_bind]
    cases first :
        memcpyS maxKidContextLen newKidContext.ptr newKidContext.len with
    | error fault =>
        exact keys
    | ok kidContext =>
        rw [andThen_ok, exec_modify_bind, exec_get_bind, exec_lift_bind]
        cases second :
            memcpyS c.cc.idContext.length newKidContext.ptr
              newKidContext.len with
        | error fault =>
            exact ⟨keys.commonIv, keys.senderKey, keys.recipientKey⟩
        | ok idContext =>
            obtain ⟨short, inBounds, _⟩ := memcpyS_eq_ok.mp first
            obtain ⟨shorter, _, _⟩ := memcpyS_eq_ok.mp second
            exact absurd ⟨inBounds, short, shorter⟩ copied

theorem kidContextUpdate_keysDerived {platform : Platform}
    {hkdf : Bytes → Bytes → Bytes → Nat → Bytes}
    (total : HkdfTotal platform hkdf)
    (lengths : platform.toCborEncoder.LengthsMonotone)
    (newKidContext : ByteArrayView) :
    Keeps (Preserves (KeysDerived platform))
      (kidContextUpdate platform newKidContext) :=
  fun _ keys =>
    kidContextUpdate_keysDerived_of keys fun shorter =>
      keys.shorter total lengths shorter

theorem CallRun.keysDerived {platform : Platform}
    {hkdf : Bytes → Bytes → Bytes → Nat → Bytes}
    (total : HkdfTotal platform hkdf)
    (lengths : platform.toCborEncoder.LengthsMonotone)
    {first last : Context} {events : List CallEvent}
    (run : CallRun platform first events last)
    (initial : KeysDerived platform first) : KeysDerived platform last :=
  run.invariant_of (fun _ _ same keys => keys.of_sameKeys same)
    (fun _ _ keys => ⟨keys.1, keys.2, keys.3⟩)
    (fun _ _ _ keys => ⟨keys.1, keys.2, keys.3⟩)
    (fun _ _ keys => ⟨keys.1, keys.2, keys.3⟩)
    (kidContextUpdate_keysDerived total lengths) initial

/-- What HKDF derives for an ID from the parameters and an ID context. -/
def hkdfOutput (cbor : CborEncoder)
    (hkdf : Bytes → Bytes → Bytes → Nat → Bytes) (params : OscoreInitParams)
    (idContext id : Bytes) (type : DeriveType) (outLen : Nat) : Bytes :=
  hkdf params.masterSecret params.masterSalt
    (hkdfInfo cbor id idContext params.aeadAlg type) outLen

/-- Whatever the calls on a context, its keys are those of its ID context. -/
theorem keys_matchIdContext (platform : Platform)
    (hkdf : Bytes → Bytes → Bytes → Nat → Bytes)
    (total : HkdfTotal platform hkdf)
    (lengths : platform.toCborEncoder.LengthsMonotone)
    (params : OscoreInitParams) (first last : Context)
    (events : List CallEvent)
    (initialised : Initialised platform params first)
    (run : CallRun platform first events last) :
    last.cc.commonIv =
        hkdfOutput platform.toCborEncoder hkdf params last.cc.idContext []
          .iv 13 ∧
      last.sc.senderKey =
        hkdfOutput platform.toCborEncoder hkdf params last.cc.idContext
          params.senderId .key 16 ∧
      last.rc.recipientKey =
        hkdfOutput platform.toCborEncoder hkdf params last.cc.idContext
          params.recipientId .key 16 ∧
      last.rrc.kid.length ≤ 7 ∧ last.rrc.kidContext.length ≤ 8 := by
  have fit := run.idsFit initialised.idsFit
  obtain ⟨buffers, done⟩ := initialised
  have initial := oscoreContextInit_initial done
  have keys := run.keysDerived total lengths initial.keys
  have same := run.sameParameters
  obtain ⟨_, _, iv⟩ := (derive_eq_ok total).mp keys.commonIv
  obtain ⟨_, _, sender⟩ := (derive_eq_ok total).mp keys.senderKey
  obtain ⟨_, _, recipient⟩ := (derive_eq_ok total).mp keys.recipientKey
  rw [same.masterSecret, same.masterSalt, same.aeadAlg, initial.masterSecret,
    initial.masterSalt, initial.aeadAlg] at iv sender recipient
  rw [same.senderId, initial.senderId] at sender
  rw [same.recipientId, initial.recipientId] at recipient
  exact ⟨iv, sender, recipient, fit.kid, fit.kidContext⟩

/-- The platform of test vectors T5 and T6 with a derivation that always
succeeds. -/
private def t6Deriving : Platform :=
  t5Platform.withTotalHkdf

/-- The server of test vector T6 changes to the empty ID context with the second
request, and keeps that one and its keys when it refuses the third. -/
theorem keys_matchIdContext_t6 :
    (t6Serves t6Deriving).after.cc.idContext = t5IdContext ∧
      (t6Switches t6Deriving).output = .ok (some t1Request) ∧
      (t6Refuses t6Deriving).output = fail .bufferToSmall ∧
      (t6Refuses t6Deriving).after.cc.idContext = [] ∧
      (t6Refuses t6Deriving).after.sc.senderKey ≠
        (t6Serves t6Deriving).after.sc.senderKey ∧
      (t6Refuses t6Deriving).after.sc.senderKey =
        hkdfOutput canonicalCbor t5Platform.hkdfOrZeros t6ServerParams [] [1]
          .key 16 ∧
      (t6Refuses t6Deriving).after.rc.recipientKey =
        hkdfOutput canonicalCbor t5Platform.hkdfOrZeros t6ServerParams [] []
          .key 16 := by
  have run : CallRun t6Deriving t6Server
      [t6Serves t6Deriving, t6Switches t6Deriving, t6Refuses t6Deriving]
      (t6Refuses t6Deriving).after :=
    .cons (callEvent_step (by decide +kernel))
      (.cons (callEvent_step (by decide +kernel))
        (.cons (callEvent_step (by decide +kernel)) (.nil _)))
  have switched : (t6Refuses t6Deriving).after.cc.idContext = [] := by
    decide +kernel
  obtain ⟨_, sender, recipient, _⟩ :=
    keys_matchIdContext t6Deriving t5Platform.hkdfOrZeros
      (fun _ _ _ _ => rfl) canonicalCbor_lengthsMonotone t6ServerParams
      t6Server _ _ ⟨zeroBuffers, rfl⟩ run
  rw [switched] at sender recipient
  exact
    ⟨by decide +kernel, by decide +kernel, by decide +kernel, switched,
      by decide +kernel, sender, recipient⟩

end UoscoreUedhoc.Oscore

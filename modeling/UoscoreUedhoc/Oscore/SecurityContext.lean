import UoscoreUedhoc.Oscore.Cose
import UoscoreUedhoc.Oscore.Nonce

/-!
# The security context

The context structures of `security_context.h` and the functions of
`security_context.c`: `derive` and its three uses, `oscore_context_init` and
`context_update`.

A byte array of the context is the list of its first `len` bytes.  The arrays
of the request-response context are longer than that, and `context_update`
works with the capacity of some and the current length of others.
-/

namespace UoscoreUedhoc.Oscore

open UoscoreUedhoc

/-! ## Structures -/

/-- `struct common_context`. -/
structure CommonContext where
  aeadAlg : AeadAlgorithm
  kdf : Hkdf
  masterSecret : Bytes
  masterSalt : Bytes
  idContext : Bytes
  commonIv : Bytes
  deriving DecidableEq, Repr

/-- `struct sender_context`. -/
structure SenderContext where
  senderId : Bytes
  senderKey : Bytes
  senderSeqNum : UInt64
  deriving DecidableEq, Repr

/-- `struct recipient_context`; `replay_window_len` is the length of the
list. -/
structure RecipientContext where
  recipientId : Bytes
  recipientKey : Bytes
  replayWindow : List UInt64
  deriving DecidableEq, Repr

/-- `struct req_resp_context`. -/
structure ReqRespContext where
  nonce : Bytes
  aad : Bytes
  piv : Bytes
  kidContext : Bytes
  kid : Bytes
  deriving DecidableEq, Repr

/-- `struct context`. -/
structure Context where
  rrc : ReqRespContext
  cc : CommonContext
  sc : SenderContext
  rc : RecipientContext
  deriving DecidableEq, Repr

/-- `enum dev_type`. -/
inductive DevType where
  | server
  | client
  deriving DecidableEq, Repr

/-- `struct oscore_init_params`. -/
structure OscoreInitParams where
  devType : DevType
  masterSecret : Bytes
  senderId : Bytes
  recipientId : Bytes
  idContext : Bytes
  masterSalt : Bytes
  aeadAlg : AeadAlgorithm
  hkdf : Hkdf
  deriving DecidableEq, Repr

/-! ## Key derivation -/

def commonIvLen : Nat := 13
def senderKeyLen : Nat := 16
def recipientKeyLen : Nat := 16
def replayWindowLen : Nat := 32

/-- `derive` into an array of `outLen` bytes. -/
def derive (platform : Platform) (cc : CommonContext) (id : Bytes)
    (type : DeriveType) (outLen : Nat) : Outcome Bytes := do
  let info ←
    oscoreCreateHkdfInfo platform.toCborEncoder id cc.idContext cc.aeadAlg type
  match cc.kdf with
  | .oscoreSha256 =>
      tryExpect
        (platform.hkdfSha256 cc.masterSecret cc.masterSalt info outLen)
  | .other _ => fail .oscoreUnknownHkdf

/-- `derive_common_iv`. -/
def deriveCommonIv (platform : Platform) (cc : CommonContext) :
    Outcome Bytes :=
  derive platform cc [] .iv commonIvLen

/-- `derive_sender_key`. -/
def deriveSenderKey (platform : Platform) (cc : CommonContext)
    (senderId : Bytes) : Outcome Bytes :=
  derive platform cc senderId .key senderKeyLen

/-- `derive_recipient_key`. -/
def deriveRecipientKey (platform : Platform) (cc : CommonContext)
    (recipientId : Bytes) : Outcome Bytes :=
  derive platform cc recipientId .key recipientKeyLen

/-! ## Initialisation -/

/-- What the buffers of the request-response context hold before anything is
written to them. -/
structure UnwrittenBuffers where
  nonce : Bytes
  aad : Bytes
  piv : Bytes
  kidContext : Bytes
  kid : Bytes
  nonce_length : nonce.length = nonceLen
  aad_length : aad.length = maxAadLen
  piv_length : piv.length = maxPivLen
  kidContext_length : kidContext.length = maxKidContextLen
  kid_length : kid.length = maxKidLen

/-- The part of `oscore_context_init` that fills the request-response
context. -/
def reqRespContextInit (params : OscoreInitParams)
    (buffers : UnwrittenBuffers) : Outcome ReqRespContext :=
  let rrc : ReqRespContext :=
    { nonce := buffers.nonce
      aad := buffers.aad
      piv := buffers.piv
      kidContext := buffers.kidContext
      kid := buffers.kid }
  match params.devType with
  | .client => do
      let kidContext ←
        memcpyS rrc.kidContext.length
          params.idContext params.idContext.length
      let kid ←
        memcpyS rrc.kid.length params.senderId params.senderId.length
      .ok { rrc with kidContext, kid }
  | .server => do
      let kid ←
        memcpyS rrc.kid.length params.recipientId params.recipientId.length
      .ok { rrc with kid }

/-- `oscore_context_init`. -/
def oscoreContextInit (platform : Platform) (params : OscoreInitParams)
    (buffers : UnwrittenBuffers) : Outcome Context := do
  if params.aeadAlg ≠ .oscoreAesCcm16_64_128 then
    fail .oscoreInvalidAlgorithmAead
  else if params.hkdf ≠ .oscoreSha256 then
    fail .oscoreInvalidAlgorithmHkdf
  else
    let cc : CommonContext :=
      { aeadAlg := params.aeadAlg
        kdf := params.hkdf
        masterSecret := params.masterSecret
        masterSalt := params.masterSalt
        idContext := params.idContext
        commonIv := [] }
    let commonIv ← deriveCommonIv platform cc
    let cc := { cc with commonIv }
    let recipientKey ← deriveRecipientKey platform cc params.recipientId
    let senderKey ← deriveSenderKey platform cc params.senderId
    let rrc ← reqRespContextInit params buffers
    .ok
      { rrc
        cc
        sc := { senderId := params.senderId, senderKey, senderSeqNum := 0 }
        rc :=
          { recipientId := params.recipientId
            recipientKey
            replayWindow := List.replicate replayWindowLen 0 } }

/-! ## Update -/

/-- The part of `context_update` that takes over a KID context different from
the ID context. -/
def kidContextUpdate (platform : Platform) (newKidContext : ByteArrayView) :
    Update Context Unit := do
  let kidContext ←
    .lift (memcpyS maxKidContextLen newKidContext.ptr newKidContext.len)
  modify fun c => { c with rrc := { c.rrc with kidContext } }
  let c ← get
  let idContext ←
    .lift
      (memcpyS c.cc.idContext.length newKidContext.ptr newKidContext.len)
  modify fun c => { c with cc := { c.cc with idContext } }
  let c ← get
  let commonIv ← .lift (deriveCommonIv platform c.cc)
  modify fun c => { c with cc := { c.cc with commonIv } }
  let c ← get
  let senderKey ← .lift (deriveSenderKey platform c.cc c.sc.senderId)
  modify fun c => { c with sc := { c.sc with senderKey } }
  let c ← get
  let recipientKey ←
    .lift (deriveRecipientKey platform c.cc c.rc.recipientId)
  modify fun c => { c with rc := { c.rc with recipientKey } }

/-- The part of `context_update` that only a server runs. -/
def serverUpdate (platform : Platform)
    (newPiv newKidContext : ByteArrayView) : Update Context Unit := do
  let piv ← .lift (memcpyS maxPivLen newPiv.ptr newPiv.len)
  modify fun c => { c with rrc := { c.rrc with piv } }
  let c ← get
  let same ← .lift (arrayEquals c.cc.idContext newKidContext)
  if same then pure () else kidContextUpdate platform newKidContext

/-- The part of `context_update` that calculates the nonce and the AAD. -/
def nonceAndAadUpdate (platform : Platform) (options : List OCoapOption) :
    Update Context Unit := do
  let c ← get
  let nonce ← .lift (createNonce c.rrc.kid c.rrc.piv c.cc.commonIv)
  modify fun c => { c with rrc := { c.rrc with nonce } }
  let (outcome, aad) :=
    createAad platform.toCborEncoder options c.cc.aeadAlg
      c.rrc.kid c.rrc.piv c.rrc.aad
  modify fun c => { c with rrc := { c.rrc with aad } }
  .lift outcome

/-- `context_update`. -/
def contextUpdate (platform : Platform) (dev : DevType)
    (options : List OCoapOption) (newPiv newKidContext : ByteArrayView) :
    Update Context Unit := do
  match dev with
  | .server => do
      serverUpdate platform newPiv newKidContext
      nonceAndAadUpdate platform options
  | .client => nonceAndAadUpdate platform options

/-! ## What the initialisation computes -/

/-- A derivation depends on the parameters of the context and the ID context
only. -/
theorem derive_congr (platform : Platform) {left right : CommonContext}
    (aeadAlg : left.aeadAlg = right.aeadAlg) (kdf : left.kdf = right.kdf)
    (masterSecret : left.masterSecret = right.masterSecret)
    (masterSalt : left.masterSalt = right.masterSalt)
    (idContext : left.idContext = right.idContext)
    (id : Bytes) (type : DeriveType) (outLen : Nat) :
    derive platform left id type outLen =
      derive platform right id type outLen := by
  unfold derive
  rw [aeadAlg, kdf, masterSecret, masterSalt, idContext]

theorem deriveCommonIv_length {platform : Platform} {cc : CommonContext}
    {commonIv : Bytes} (derived : deriveCommonIv platform cc = .ok commonIv) :
    commonIv.length = commonIvLen := by
  unfold deriveCommonIv derive at derived
  obtain ⟨info, _, derived⟩ := outcome_bind_eq_ok.mp derived
  split at derived
  · exact platform.hkdfSha256_length (tryExpect_eq_ok.mp derived)
  · cases derived

/-- The keys and the Common IV are those of the ID context. -/
structure KeysDerived (platform : Platform) (c : Context) : Prop where
  commonIv : deriveCommonIv platform c.cc = .ok c.cc.commonIv
  senderKey :
    deriveSenderKey platform c.cc c.sc.senderId = .ok c.sc.senderKey
  recipientKey :
    deriveRecipientKey platform c.cc c.rc.recipientId =
      .ok c.rc.recipientKey

/-- The sender ID of the client, of which both sides keep a copy. -/
def OscoreInitParams.clientId (params : OscoreInitParams) : Bytes :=
  match params.devType with
  | .client => params.senderId
  | .server => params.recipientId

/-- What `oscore_context_init` makes of its parameters. -/
structure InitialContext (platform : Platform) (params : OscoreInitParams)
    (c : Context) : Prop where
  aeadAlg : c.cc.aeadAlg = params.aeadAlg
  kdf : c.cc.kdf = params.hkdf
  masterSecret : c.cc.masterSecret = params.masterSecret
  masterSalt : c.cc.masterSalt = params.masterSalt
  idContext : c.cc.idContext = params.idContext
  senderId : c.sc.senderId = params.senderId
  senderSeqNum : c.sc.senderSeqNum = 0
  recipientId : c.rc.recipientId = params.recipientId
  kid : c.rrc.kid = params.clientId
  kid_length : params.clientId.length ≤ maxKidLen
  kidContext : params.devType = .client → c.rrc.kidContext = params.idContext
  nonce_length : c.rrc.nonce.length = nonceLen
  aad_length : c.rrc.aad.length = maxAadLen
  keys : KeysDerived platform c

theorem oscoreContextInit_initial {platform : Platform}
    {params : OscoreInitParams} {buffers : UnwrittenBuffers} {c : Context}
    (done : oscoreContextInit platform params buffers = .ok c) :
    InitialContext platform params c := by
  unfold oscoreContextInit at done
  split at done
  · cases done
  · split at done
    · cases done
    · simp only [outcome_bind_eq_ok, Except.ok.injEq] at done
      obtain ⟨commonIv, ivDerived, recipientKey, recipientDerived, senderKey,
        senderDerived, rrc, filled, rfl⟩ := done
      have keys : KeysDerived platform
          { rrc
            cc :=
              { aeadAlg := params.aeadAlg
                kdf := params.hkdf
                masterSecret := params.masterSecret
                masterSalt := params.masterSalt
                idContext := params.idContext
                commonIv := commonIv }
            sc :=
              { senderId := params.senderId, senderKey, senderSeqNum := 0 }
            rc :=
              { recipientId := params.recipientId
                recipientKey
                replayWindow := List.replicate replayWindowLen 0 } } :=
        ⟨ivDerived, senderDerived, recipientDerived⟩
      unfold reqRespContextInit at filled
      cases devType : params.devType with
      | client =>
          simp only [devType, outcome_bind_eq_ok, memcpyS_eq_ok,
            List.take_length, Except.ok.injEq] at filled
          obtain ⟨kidContext, ⟨_, _, rfl⟩, kid, ⟨short, _, rfl⟩, rfl⟩ :=
            filled
          rw [buffers.kid_length] at short
          refine
            ⟨rfl, rfl, rfl, rfl, rfl, rfl, rfl, rfl, ?_, ?_, ?_,
              buffers.nonce_length, buffers.aad_length, keys⟩
          · simp [OscoreInitParams.clientId, devType]
          · simpa [OscoreInitParams.clientId, devType] using short
          · intro _
            rfl
      | server =>
          simp only [devType, outcome_bind_eq_ok, memcpyS_eq_ok,
            List.take_length, Except.ok.injEq] at filled
          obtain ⟨kid, ⟨short, _, rfl⟩, rfl⟩ := filled
          rw [buffers.kid_length] at short
          refine
            ⟨rfl, rfl, rfl, rfl, rfl, rfl, rfl, rfl, ?_, ?_, ?_,
              buffers.nonce_length, buffers.aad_length, keys⟩
          · simp [OscoreInitParams.clientId, devType]
          · simpa [OscoreInitParams.clientId, devType] using short
          · intro client
            rw [devType] at client
            cases client

theorem reqRespContextInit_lengths {params : OscoreInitParams}
    {buffers : UnwrittenBuffers} {rrc : ReqRespContext}
    (filled : reqRespContextInit params buffers = .ok rrc) :
    rrc.kid.length ≤ maxKidLen ∧
      rrc.kidContext.length ≤ maxKidContextLen := by
  have kidRoom := buffers.kid_length
  have contextRoom := buffers.kidContext_length
  unfold reqRespContextInit at filled
  cases devType : params.devType with
  | client =>
      simp only [devType, outcome_bind_eq_ok, memcpyS_eq_ok,
        List.take_length, Except.ok.injEq] at filled
      obtain ⟨_, ⟨contextShort, _, rfl⟩, _, ⟨kidShort, _, rfl⟩, rfl⟩ := filled
      exact ⟨kidShort.trans kidRoom.le, contextShort.trans contextRoom.le⟩
  | server =>
      simp only [devType, outcome_bind_eq_ok, memcpyS_eq_ok,
        List.take_length, Except.ok.injEq] at filled
      obtain ⟨_, ⟨kidShort, _, rfl⟩, rfl⟩ := filled
      exact ⟨kidShort.trans kidRoom.le, contextRoom.le⟩

theorem oscoreContextInit_rrc {platform : Platform}
    {params : OscoreInitParams} {buffers : UnwrittenBuffers} {c : Context}
    (done : oscoreContextInit platform params buffers = .ok c) :
    reqRespContextInit params buffers = .ok c.rrc := by
  unfold oscoreContextInit at done
  split at done
  · cases done
  · split at done
    · cases done
    · simp only [outcome_bind_eq_ok, Except.ok.injEq] at done
      obtain ⟨_, _, _, _, _, _, rrc, filled, rfl⟩ := done
      exact filled

/-! ## What the updates compute -/

open Update

/-- The AAD of the request in the request-response context. -/
def requestAad (cbor : CborEncoder) (c : Context) : Bytes :=
  aadArray cbor c.cc.aeadAlg c.rrc.kid c.rrc.piv []

/-- A context with the results of `nonceAndAadUpdate`. -/
def Context.setNonceAndAad (c : Context) (nonce aad : Bytes) : Context :=
  { c with rrc := { c.rrc with nonce, aad } }

def Context.setPiv (c : Context) (piv : Bytes) : Context :=
  { c with rrc := { c.rrc with piv } }

/-- A context with the results of `kidContextUpdate`. -/
def Context.setIdContext (c : Context)
    (idContext commonIv senderKey recipientKey : Bytes) : Context :=
  { rrc := { c.rrc with kidContext := idContext }
    cc := { c.cc with idContext, commonIv }
    sc := { c.sc with senderKey }
    rc := { c.rc with recipientKey } }

theorem exec_nonceAndAadUpdate (platform : Platform)
    (options : List OCoapOption) (c : Context) :
    exec (nonceAndAadUpdate platform options) c =
      match createNonce c.rrc.kid c.rrc.piv c.cc.commonIv with
      | .error fault => (.error fault, c)
      | .ok nonce =>
          let aad := requestAad platform.toCborEncoder c
          if aad.length ≤ c.rrc.aad.length then
            (.ok (), c.setNonceAndAad nonce aad)
          else
            (fail .unexpectedResultFromExtLib,
              c.setNonceAndAad nonce (platform.residue aad c.rrc.aad)) := by
  unfold nonceAndAadUpdate
  rw [exec_get_bind, exec_bind, exec_lift]
  cases createNonce c.rrc.kid c.rrc.piv c.cc.commonIv with
  | error fault =>
      rfl
  | ok nonce =>
      have created :=
        createAad_eq platform.toCborEncoder options c.cc.aeadAlg c.rrc.kid
          c.rrc.piv c.rrc.aad
      by_cases fits :
          (requestAad platform.toCborEncoder c).length ≤ c.rrc.aad.length
      · rw [if_pos (by exact fits)] at created
        simp only [created, exec_modify_bind, exec_lift, if_pos fits]
        rfl
      · rw [if_neg (by exact fits)] at created
        simp only [created, exec_modify_bind, exec_lift, if_neg fits]
        rfl

theorem nonceAndAadUpdate_eq_ok {platform : Platform}
    {options : List OCoapOption} {c after : Context} {done : Unit} :
    exec (nonceAndAadUpdate platform options) c = (.ok done, after) ↔
      ∃ nonce,
        createNonce c.rrc.kid c.rrc.piv c.cc.commonIv = .ok nonce ∧
          (requestAad platform.toCborEncoder c).length ≤
            c.rrc.aad.length ∧
          after =
            c.setNonceAndAad nonce
              (requestAad platform.toCborEncoder c) := by
  rw [exec_nonceAndAadUpdate]
  cases createNonce c.rrc.kid c.rrc.piv c.cc.commonIv with
  | error fault =>
      simp
  | ok nonce =>
      by_cases fits :
          (requestAad platform.toCborEncoder c).length ≤ c.rrc.aad.length
      · simp [fits, eq_comm]
      · simp [fits, fail]

/-- A KID context is taken over with everything derived from it. -/
theorem kidContextUpdate_eq_ok {platform : Platform}
    {newKidContext : ByteArrayView} {c after : Context} {done : Unit} :
    exec (kidContextUpdate platform newKidContext) c = (.ok done, after) ↔
      newKidContext.InBounds ∧ newKidContext.len ≤ maxKidContextLen ∧
        newKidContext.len ≤ c.cc.idContext.length ∧
        ∃ commonIv senderKey recipientKey,
          let idContext := newKidContext.content
          deriveCommonIv platform { c.cc with idContext } = .ok commonIv ∧
            deriveSenderKey platform { c.cc with idContext, commonIv }
              c.sc.senderId = .ok senderKey ∧
            deriveRecipientKey platform { c.cc with idContext, commonIv }
              c.rc.recipientId = .ok recipientKey ∧
            after =
              c.setIdContext idContext commonIv senderKey
                recipientKey := by
  unfold kidContextUpdate
  simp only [exec_lift_bind, andThen_eq_ok, exec_get_bind, exec_modify_bind,
    exec_modify, memcpyS_eq_ok, Prod.mk.injEq, ByteArrayView.InBounds,
    ByteArrayView.content]
  constructor
  · rintro ⟨_, ⟨shortKid, inBounds, rfl⟩, _, ⟨shortId, _, rfl⟩, commonIv,
      ivDerived, senderKey, senderDerived, recipientKey, recipientDerived,
      _, rfl⟩
    exact
      ⟨inBounds, shortKid, shortId, commonIv, senderKey, recipientKey,
        ivDerived, senderDerived, recipientDerived, rfl⟩
  · rintro ⟨inBounds, shortKid, shortId, commonIv, senderKey, recipientKey,
      ivDerived, senderDerived, recipientDerived, rfl⟩
    exact
      ⟨_, ⟨shortKid, inBounds, rfl⟩, _, ⟨shortId, inBounds, rfl⟩, commonIv,
        ivDerived, senderKey, senderDerived, recipientKey, recipientDerived,
        trivial, rfl⟩

theorem exec_serverUpdate (platform : Platform)
    (newPiv newKidContext : ByteArrayView) (c : Context) :
    exec (serverUpdate platform newPiv newKidContext) c =
      match memcpyS maxPivLen newPiv.ptr newPiv.len with
      | .error fault => (.error fault, c)
      | .ok piv =>
          match arrayEquals c.cc.idContext newKidContext with
          | .error fault => (.error fault, c.setPiv piv)
          | .ok true => (.ok (), c.setPiv piv)
          | .ok false =>
              exec (kidContextUpdate platform newKidContext)
                (c.setPiv piv) := by
  unfold serverUpdate
  rw [exec_bind, exec_lift]
  cases memcpyS maxPivLen newPiv.ptr newPiv.len with
  | error fault =>
      rfl
  | ok piv =>
      simp only [exec_modify_bind, exec_get_bind]
      rw [exec_bind, exec_lift]
      cases arrayEquals c.cc.idContext newKidContext with
      | error fault =>
          rfl
      | ok same =>
          cases same <;> rfl

/-- The server takes over the Partial IV, and the KID context where it differs
from the ID context. -/
theorem serverUpdate_eq_ok {platform : Platform}
    {newPiv newKidContext : ByteArrayView} {c after : Context}
    {done : Unit} :
    exec (serverUpdate platform newPiv newKidContext) c =
        (.ok done, after) ↔
      newPiv.len ≤ maxPivLen ∧ newPiv.InBounds ∧
        ((arrayEquals c.cc.idContext newKidContext = .ok true ∧
            after = c.setPiv newPiv.content) ∨
          (arrayEquals c.cc.idContext newKidContext = .ok false ∧
            exec (kidContextUpdate platform newKidContext)
              (c.setPiv newPiv.content) = (.ok done, after))) := by
  rw [exec_serverUpdate]
  by_cases copied :
      newPiv.len ≤ maxPivLen ∧ newPiv.len ≤ newPiv.ptr.length
  · have copy :
        memcpyS maxPivLen newPiv.ptr newPiv.len = .ok newPiv.content :=
      memcpyS_eq_ok.mpr ⟨copied.1, copied.2, rfl⟩
    rw [copy]
    cases arrayEquals c.cc.idContext newKidContext with
    | error fault =>
        simp
    | ok same =>
        cases same with
        | false =>
            simp [copied.1, ByteArrayView.InBounds, copied.2]
        | true =>
            simp [copied.1, ByteArrayView.InBounds, copied.2, eq_comm]
  · cases refused : memcpyS maxPivLen newPiv.ptr newPiv.len with
    | error fault =>
        simp only [Prod.mk.injEq, reduceCtorEq, false_and, false_iff]
        rintro ⟨short, inBounds, _⟩
        exact copied ⟨short, inBounds⟩
    | ok piv =>
        obtain ⟨short, inBounds, _⟩ := memcpyS_eq_ok.mp refused
        exact absurd ⟨short, inBounds⟩ copied

/-- A KID context that the server compares or takes over lies in its buffer. -/
theorem serverUpdate_inBounds {platform : Platform}
    {newPiv newKidContext : ByteArrayView} {c after : Context} {done : Unit}
    (updated :
      exec (serverUpdate platform newPiv newKidContext) c =
        (.ok done, after)) :
    newKidContext.InBounds := by
  obtain ⟨_, _, same | different⟩ := serverUpdate_eq_ok.mp updated
  · exact (arrayEquals_eq_true.mp same.1).1
  · exact (kidContextUpdate_eq_ok.mp different.2).1

/-- What the part of `context_update` for servers leaves on success. -/
structure ServerUpdated (platform : Platform) (piv kidContext : Bytes)
    (c after : Context) : Prop where
  kidContext_fits :
    kidContext = c.cc.idContext ∨
      (kidContext.length ≤ c.cc.idContext.length ∧
        kidContext.length ≤ maxKidContextLen)
  piv : after.rrc.piv = piv
  idContext : after.cc.idContext = kidContext
  nonce : after.rrc.nonce = c.rrc.nonce
  aad : after.rrc.aad = c.rrc.aad
  kid : after.rrc.kid = c.rrc.kid
  aeadAlg : after.cc.aeadAlg = c.cc.aeadAlg
  replayWindow : after.rc.replayWindow = c.rc.replayWindow
  keys : KeysDerived platform c → KeysDerived platform after

theorem kidContextUpdate_updated {platform : Platform}
    {newKidContext : ByteArrayView} {c after : Context} {done : Unit}
    (updated :
      exec (kidContextUpdate platform newKidContext) c = (.ok done, after)) :
    ServerUpdated platform c.rrc.piv newKidContext.content c after := by
  obtain ⟨inBounds, shortKid, shortId, commonIv, senderKey, recipientKey,
    ivDerived, senderDerived, recipientDerived, rfl⟩ :=
    kidContextUpdate_eq_ok.mp updated
  have length := ByteArrayView.content_length inBounds
  refine ⟨Or.inr ?_, rfl, rfl, rfl, rfl, rfl, rfl, rfl, ?_⟩
  · rw [length]
    exact ⟨shortId, shortKid⟩
  · intro _
    exact ⟨ivDerived, senderDerived, recipientDerived⟩

theorem serverUpdate_updated {platform : Platform}
    {newPiv newKidContext : ByteArrayView} {c after : Context}
    {done : Unit}
    (updated :
      exec (serverUpdate platform newPiv newKidContext) c =
        (.ok done, after)) :
    ServerUpdated platform newPiv.content newKidContext.content c after := by
  obtain ⟨_, _, same | different⟩ := serverUpdate_eq_ok.mp updated
  · obtain ⟨equal, rfl⟩ := same
    have content := (arrayEquals_eq_true.mp equal).2
    refine ⟨Or.inl content, rfl, content.symm, rfl, rfl, rfl, rfl, rfl, ?_⟩
    intro keys
    exact ⟨keys.commonIv, keys.senderKey, keys.recipientKey⟩
  · exact
      { kidContextUpdate_updated different.2 with
        keys := fun keys =>
          (kidContextUpdate_updated different.2).keys
            ⟨keys.commonIv, keys.senderKey, keys.recipientKey⟩ }

/-- A server takes over a KID context that fits when the keys for it can be
derived. -/
theorem serverUpdate_total {platform : Platform}
    {newPiv newKidContext : ByteArrayView} {c : Context}
    (pivFits : newPiv.len ≤ maxPivLen) (pivInBounds : newPiv.InBounds)
    (inBounds : newKidContext.InBounds)
    (fits : newKidContext.content = c.cc.idContext ∨
      (newKidContext.content.length ≤ c.cc.idContext.length ∧
        newKidContext.content.length ≤ maxKidContextLen))
    (derivable : ∃ commonIv senderKey recipientKey,
      let cc := { c.cc with idContext := newKidContext.content }
      deriveCommonIv platform cc = .ok commonIv ∧
        deriveSenderKey platform cc c.sc.senderId = .ok senderKey ∧
        deriveRecipientKey platform cc c.rc.recipientId =
          .ok recipientKey) :
    ∃ after, exec (serverUpdate platform newPiv newKidContext) c =
      (.ok (), after) := by
  have compared := @arrayEquals_of_inBounds c.cc.idContext _ inBounds
  have length := ByteArrayView.content_length inBounds
  by_cases same : newKidContext.content = c.cc.idContext
  · rw [decide_eq_true same] at compared
    exact
      ⟨_, serverUpdate_eq_ok.mpr
        ⟨pivFits, pivInBounds, Or.inl ⟨compared, rfl⟩⟩⟩
  · rw [decide_eq_false same] at compared
    rw [length] at fits
    have short := fits.resolve_left same
    obtain ⟨commonIv, senderKey, recipientKey, ivDerived, senderDerived,
      recipientDerived⟩ := derivable
    have updated :
        exec (kidContextUpdate platform newKidContext)
            (c.setPiv newPiv.content) =
          (.ok (),
            (c.setPiv newPiv.content).setIdContext newKidContext.content
              commonIv senderKey recipientKey) :=
      kidContextUpdate_eq_ok.mpr
        ⟨inBounds, short.2, short.1, commonIv, senderKey, recipientKey,
          ivDerived, senderDerived, recipientDerived, rfl⟩
    exact
      ⟨_, serverUpdate_eq_ok.mpr
        ⟨pivFits, pivInBounds, Or.inr ⟨compared, updated⟩⟩⟩

theorem contextUpdate_server_eq_ok {platform : Platform}
    {options : List OCoapOption} {newPiv newKidContext : ByteArrayView}
    {c after : Context} {done : Unit} :
    exec (contextUpdate platform .server options newPiv newKidContext) c =
        (.ok done, after) ↔
      ∃ between nonce,
        exec (serverUpdate platform newPiv newKidContext) c =
            (.ok (), between) ∧
          createNonce between.rrc.kid between.rrc.piv between.cc.commonIv =
            .ok nonce ∧
          (requestAad platform.toCborEncoder between).length ≤
            between.rrc.aad.length ∧
          after =
            between.setNonceAndAad nonce
              (requestAad platform.toCborEncoder between) := by
  unfold contextUpdate
  simp only [exec_bind_eq_ok, nonceAndAadUpdate_eq_ok]
  constructor
  · intro updated
    obtain ⟨_, between, server, nonce, created, fits, rfl⟩ := updated
    exact ⟨between, nonce, server, created, fits, rfl⟩
  · intro updated
    obtain ⟨between, nonce, server, created, fits, rfl⟩ := updated
    exact ⟨(), between, server, nonce, created, fits, rfl⟩

/-! ## What the updates leave unchanged -/

/-- The parts of a context that no call changes. -/
structure SameParameters (before after : Context) : Prop where
  aeadAlg : after.cc.aeadAlg = before.cc.aeadAlg
  kdf : after.cc.kdf = before.cc.kdf
  masterSecret : after.cc.masterSecret = before.cc.masterSecret
  masterSalt : after.cc.masterSalt = before.cc.masterSalt
  senderId : after.sc.senderId = before.sc.senderId
  recipientId : after.rc.recipientId = before.rc.recipientId
  kid : after.rrc.kid = before.rrc.kid

instance : Std.Refl SameParameters where
  refl _ := ⟨rfl, rfl, rfl, rfl, rfl, rfl, rfl⟩

instance : IsTrans Context SameParameters where
  trans _ _ _ first second :=
    ⟨second.aeadAlg.trans first.aeadAlg, second.kdf.trans first.kdf,
      second.masterSecret.trans first.masterSecret,
      second.masterSalt.trans first.masterSalt,
      second.senderId.trans first.senderId,
      second.recipientId.trans first.recipientId,
      second.kid.trans first.kid⟩

/-- The parts of a context that receiving a packet leaves unchanged. -/
structure SameIdentity (before after : Context) : Prop
    extends SameParameters before after where
  senderSeqNum : after.sc.senderSeqNum = before.sc.senderSeqNum

instance : Std.Refl SameIdentity where
  refl _ := ⟨refl _, rfl⟩

instance : IsTrans Context SameIdentity where
  trans _ _ _ first second :=
    ⟨IsTrans.trans _ _ _ first.toSameParameters second.toSameParameters,
      second.senderSeqNum.trans first.senderSeqNum⟩

/-- The parts of a context that taking over a KID context leaves unchanged. -/
structure SameRequest (before after : Context) : Prop
    extends SameIdentity before after where
  nonce : after.rrc.nonce = before.rrc.nonce
  aad : after.rrc.aad = before.rrc.aad
  piv : after.rrc.piv = before.rrc.piv
  replayWindow : after.rc.replayWindow = before.rc.replayWindow

instance : Std.Refl SameRequest where
  refl _ := ⟨refl _, rfl, rfl, rfl, rfl⟩

instance : IsTrans Context SameRequest where
  trans _ _ _ first second :=
    ⟨IsTrans.trans _ _ _ first.toSameIdentity second.toSameIdentity,
      second.nonce.trans first.nonce, second.aad.trans first.aad,
      second.piv.trans first.piv,
      second.replayWindow.trans first.replayWindow⟩

/-- What a context has derived is what another one with its parameters derives
from its ID context. -/
theorem KeysDerived.derivable {platform : Platform} {c other : Context}
    (keys : KeysDerived platform c) (same : SameParameters c other) :
    let cc := { other.cc with idContext := c.cc.idContext }
    deriveCommonIv platform cc = .ok c.cc.commonIv ∧
      deriveSenderKey platform cc other.sc.senderId = .ok c.sc.senderKey ∧
      deriveRecipientKey platform cc other.rc.recipientId =
        .ok c.rc.recipientKey := by
  have congr :=
    @derive_congr platform { other.cc with idContext := c.cc.idContext } c.cc
      same.aeadAlg same.kdf same.masterSecret same.masterSalt rfl
  refine ⟨?_, ?_, ?_⟩
  · exact (congr _ _ _).trans keys.commonIv
  · rw [same.senderId]
    exact (congr _ _ _).trans keys.senderKey
  · rw [same.recipientId]
    exact (congr _ _ _).trans keys.recipientKey

/-- Contexts with the same parameters and the same ID context derive the same
keys. -/
theorem KeysDerived.unique {platform : Platform} {left right : Context}
    (leftKeys : KeysDerived platform left)
    (rightKeys : KeysDerived platform right)
    (same : SameParameters left right)
    (idContext : left.cc.idContext = right.cc.idContext) :
    right.cc.commonIv = left.cc.commonIv ∧
      right.sc.senderKey = left.sc.senderKey ∧
      right.rc.recipientKey = left.rc.recipientKey := by
  obtain ⟨iv, sender, recipient⟩ := leftKeys.derivable same
  rw [idContext] at iv sender recipient
  refine ⟨?_, ?_, ?_⟩
  · exact Except.ok.inj (rightKeys.commonIv.symm.trans iv)
  · exact Except.ok.inj (rightKeys.senderKey.symm.trans sender)
  · exact Except.ok.inj (rightKeys.recipientKey.symm.trans recipient)

/-- The parts of a context that protecting a packet leaves unchanged. -/
structure SameKeys (before after : Context) : Prop where
  cc : after.cc = before.cc
  rc : after.rc = before.rc
  senderId : after.sc.senderId = before.sc.senderId
  senderKey : after.sc.senderKey = before.sc.senderKey
  kid : after.rrc.kid = before.rrc.kid
  kidContext : after.rrc.kidContext = before.rrc.kidContext

theorem SameKeys.sameParameters {before after : Context}
    (same : SameKeys before after) : SameParameters before after := by
  have cc := same.cc
  have rc := same.rc
  exact
    ⟨by rw [cc], by rw [cc], by rw [cc], by rw [cc], same.senderId,
      by rw [rc], same.kid⟩

instance : Std.Refl SameKeys where
  refl _ := ⟨rfl, rfl, rfl, rfl, rfl, rfl⟩

instance : IsTrans Context SameKeys where
  trans _ _ _ first second :=
    ⟨second.cc.trans first.cc, second.rc.trans first.rc,
      second.senderId.trans first.senderId,
      second.senderKey.trans first.senderKey, second.kid.trans first.kid,
      second.kidContext.trans first.kidContext⟩

theorem nonceAndAadUpdate_same (platform : Platform)
    (options : List OCoapOption) (c : Context) :
    ∃ nonce aad,
      (exec (nonceAndAadUpdate platform options) c).2 =
        c.setNonceAndAad nonce aad := by
  rw [exec_nonceAndAadUpdate]
  cases createNonce c.rrc.kid c.rrc.piv c.cc.commonIv with
  | error fault =>
      exact ⟨c.rrc.nonce, c.rrc.aad, rfl⟩
  | ok nonce =>
      by_cases fits :
          (requestAad platform.toCborEncoder c).length ≤ c.rrc.aad.length
      · simp only [if_pos fits]
        exact ⟨_, _, rfl⟩
      · simp only [if_neg fits]
        exact ⟨_, _, rfl⟩

theorem nonceAndAadUpdate_keepsKeys (platform : Platform)
    (options : List OCoapOption) :
    Keeps SameKeys (nonceAndAadUpdate platform options) := by
  intro c
  obtain ⟨nonce, aad, same⟩ := nonceAndAadUpdate_same platform options c
  rw [same]
  exact ⟨rfl, rfl, rfl, rfl, rfl, rfl⟩

theorem nonceAndAadUpdate_keeps (platform : Platform)
    (options : List OCoapOption) :
    Keeps SameIdentity (nonceAndAadUpdate platform options) := by
  intro c
  obtain ⟨nonce, aad, same⟩ := nonceAndAadUpdate_same platform options c
  rw [same]
  exact ⟨⟨rfl, rfl, rfl, rfl, rfl, rfl, rfl⟩, rfl⟩

/-- The update of the ID context keeps what each of its stores keeps. -/
theorem kidContextUpdate_keeps_of {platform : Platform}
    {relation : Context → Context → Prop}
    [Std.Refl relation] [IsTrans Context relation]
    (newKidContext : ByteArrayView)
    (kidContextKept : ∀ (c : Context) (kidContext : Bytes),
      kidContext.length ≤ maxKidContextLen →
      relation c { c with rrc := { c.rrc with kidContext } })
    (idContextKept : ∀ (c : Context) (idContext : Bytes),
      idContext.length ≤ c.cc.idContext.length →
      relation c { c with cc := { c.cc with idContext } })
    (commonIvKept : ∀ (c : Context) (commonIv : Bytes),
      deriveCommonIv platform c.cc = .ok commonIv →
      relation c { c with cc := { c.cc with commonIv } })
    (senderKeyKept : ∀ (c : Context) (senderKey : Bytes),
      deriveSenderKey platform c.cc c.sc.senderId = .ok senderKey →
      relation c { c with sc := { c.sc with senderKey } })
    (recipientKeyKept : ∀ (c : Context) (recipientKey : Bytes),
      deriveRecipientKey platform c.cc c.rc.recipientId = .ok recipientKey →
      relation c { c with rc := { c.rc with recipientKey } }) :
    Keeps relation (kidContextUpdate platform newKidContext) := by
  unfold kidContextUpdate
  refine Keeps.lift_bind ?_
  intro kidContext copied
  obtain ⟨short, _, rfl⟩ := memcpyS_eq_ok.mp copied
  refine Keeps.bind (Keeps.modify ?_) ?_
  · intro c
    exact kidContextKept c _ ((List.length_take_le _ _).trans short)
  · intro _
    refine
      keeps_compute ?_
        (keeps_compute commonIvKept
          (keeps_compute senderKeyKept (keeps_compute_last recipientKeyKept)))
    intro c idContext copiedId
    obtain ⟨shorter, _, rfl⟩ := memcpyS_eq_ok.mp copiedId
    exact idContextKept c _ ((List.length_take_le _ _).trans shorter)

theorem kidContextUpdate_keeps (platform : Platform)
    (newKidContext : ByteArrayView) :
    Keeps SameRequest (kidContextUpdate platform newKidContext) := by
  refine kidContextUpdate_keeps_of newKidContext ?_ ?_ ?_ ?_ ?_
  all_goals
    intro _ _ _
    exact ⟨⟨⟨rfl, rfl, rfl, rfl, rfl, rfl, rfl⟩, rfl⟩, rfl, rfl, rfl, rfl⟩

theorem serverUpdate_keeps (platform : Platform)
    (newPiv newKidContext : ByteArrayView) :
    Keeps SameIdentity (serverUpdate platform newPiv newKidContext) := by
  unfold serverUpdate
  refine Keeps.bind (Keeps.lift _) ?_
  intro piv
  refine Keeps.bind (Keeps.modify ?_) ?_
  · intro _
    exact ⟨⟨rfl, rfl, rfl, rfl, rfl, rfl, rfl⟩, rfl⟩
  · intro _
    refine Keeps.bind Keeps.get ?_
    intro c
    refine Keeps.bind (Keeps.lift _) ?_
    intro same
    exact
      Keeps.ite (Keeps.pure _)
        ((kidContextUpdate_keeps platform newKidContext).mono
          fun _ _ kept => kept.toSameIdentity)

theorem contextUpdate_keeps (platform : Platform) (dev : DevType)
    (options : List OCoapOption) (newPiv newKidContext : ByteArrayView) :
    Keeps SameIdentity
      (contextUpdate platform dev options newPiv newKidContext) := by
  cases dev with
  | client =>
      exact nonceAndAadUpdate_keeps platform options
  | server =>
      refine Keeps.bind (serverUpdate_keeps platform newPiv newKidContext) ?_
      intro _
      exact nonceAndAadUpdate_keeps platform options

end UoscoreUedhoc.Oscore

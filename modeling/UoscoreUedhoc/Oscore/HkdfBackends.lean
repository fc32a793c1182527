import UoscoreUedhoc.Edhoc.HkdfExpand
import UoscoreUedhoc.Oscore.KidContexts

/-!
# HKDF of OSCORE

`hkdf_sha_256` of `crypto_wrapper.c` calls `hkdf_extract` and `hkdf_expand`, each
of which has a variant for TINYCRYPT and one for MBEDTLS.  Inside OSCORE both
compute HKDF of RFC 5869, so that a context does not depend on the library that
its device is built with.
-/

namespace UoscoreUedhoc.Oscore

open UoscoreUedhoc
open UoscoreUedhoc.Edhoc
open UoscoreUedhoc.Runs
open UoscoreUedhoc.Stores

/-! ## The functions of the wrapper -/

/-- `zero_salt`. -/
def zeroSalt : Bytes := List.replicate 32 0

theorem zeroSalt_length : zeroSalt.length = 32 :=
  List.length_replicate

/-- The part of `hkdf_extract` for TINYCRYPT. -/
def tinycryptExtract (hmac : HmacFunction) (salt ikm : Bytes) : Digest :=
  let h := if salt.length = 0 then tcHmacInit zeroSalt else tcHmacInit salt
  let h := tcHmacUpdate h ikm
  tcHmacFinal hmac h

/-- The part of `hkdf_extract` for MBEDTLS. -/
def mbedtlsExtract (hmac : HmacFunction) (salt ikm : Bytes) : Digest :=
  if salt.length ≠ 0 then hmac salt ikm else hmac zeroSalt ikm

/-- `hkdf_extract`. -/
def hkdfExtract (hmac : HmacFunction) (backend : CryptoBackend)
    (alg : HashAlg) (salt ikm : Bytes) : Outcome Digest :=
  if alg ≠ .sha256 then
    fail .cryptoOperationNotImplemented
  else
    match backend with
    | .tinycrypt => .ok (tinycryptExtract hmac salt ikm)
    | .mbedtls => .ok (mbedtlsExtract hmac salt ikm)

/-- `hkdf_sha_256` with the output buffer `out`; `combo` is what the buffer of
`hkdf_expand` holds before. -/
def hkdfSha256 (hmac : HmacFunction) (sizes : BufSizes)
    (backend : CryptoBackend)
    (masterSecret masterSalt info combo out : Bytes) : Outcome Bytes := do
  let prk ← hkdfExtract hmac backend .sha256 masterSalt masterSecret
  hkdfExpand hmac sizes backend .sha256 prk.val info combo out
    (UInt32.ofNat out.length)

/-! ## RFC 5869 -/

/-- HKDF of RFC 5869: the missing salt is a string of zeros. -/
def standardHkdf (hmac : HmacFunction) (secret salt info : Bytes)
    (length : Nat) : Bytes :=
  outputKeyingMaterial hmac
    (hmac (if salt = [] then zeroSalt else salt) secret).val info length

theorem outputKeyingMaterial_length (hmac : HmacFunction) (prk info : Bytes)
    (length : Nat) :
    (outputKeyingMaterial hmac prk info length).length = length := by
  unfold outputKeyingMaterial
  rw [List.length_take, hkdfBlocks_length]
  omega

theorem hkdfExtract_eq (hmac : HmacFunction) (backend : CryptoBackend)
    (salt ikm : Bytes) :
    hkdfExtract hmac backend .sha256 salt ikm =
      .ok (hmac (if salt = [] then zeroSalt else salt) ikm) := by
  unfold hkdfExtract
  rw [if_neg (by simp)]
  cases backend with
  | tinycrypt =>
      unfold tinycryptExtract tcHmacFinal tcHmacUpdate tcHmacInit
      by_cases missing : salt = []
      · simp [missing]
      · simp [missing]
  | mbedtls =>
      unfold mbedtlsExtract
      by_cases missing : salt = []
      · simp [missing]
      · simp [missing]

/-- For short outputs, both libraries compute HKDF, as long as the info fits
into the buffer of MBEDTLS. -/
theorem hkdfSha256_eq {hmac : HmacFunction} {sizes : BufSizes}
    {backend : CryptoBackend} {secret salt info combo out : Bytes}
    (small : out.length ≤ 254 * 32)
    (hasCombo : combo.length = sizes.infoDefaultSize)
    (short : info.length ≤ sizes.infoDefaultSize - 33) :
    hkdfSha256 hmac sizes backend secret salt info combo out =
      .ok (standardHkdf hmac secret salt info out.length) := by
  have outLen : (UInt32.ofNat out.length).toNat = out.length := by
    rw [UInt32.toNat_ofNat']
    omega
  have room : (UInt32.ofNat out.length).toNat ≤ out.length := outLen.le
  unfold hkdfSha256 standardHkdf
  rw [hkdfExtract_eq, outcome_ok_bind]
  cases backend with
  | tinycrypt =>
      rw [hkdfExpand_tinycrypt (by omega) room, if_neg (by omega), outLen,
        List.drop_length, List.append_nil]
  | mbedtls =>
      rw [hkdfExpand_mbedtls (by omega) room hasCombo short, outLen,
        List.drop_length, List.append_nil]

/-! ## Every result fills its buffer -/

theorem store_length {α : Type} {buffer items stored : List α} {offset : Int}
    (done : store buffer offset items = some stored) :
    stored.length = buffer.length := by
  obtain ⟨⟨positive, inside⟩, rfl⟩ := store_eq_some.mp done
  unfold overwrite
  rw [List.length_append, List.length_append, List.length_take,
    List.length_drop]
  omega

theorem tinycryptLoop_length {hmac : HmacFunction} {prk info : Bytes}
    {iterations outLen : UInt32} {i : UInt8} {t : Digest}
    {out written : Bytes}
    (done :
      tinycryptLoop hmac prk info iterations outLen i t out = .ok written) :
    written.length = out.length := by
  fun_induction tinycryptLoop hmac prk info iterations outLen i t out with
  | case1 i t out running next length stored isStored inductionHypothesis =>
      rw [inductionHypothesis done, store_length isStored]
  | case2 i t out running next length outside =>
      cases done
  | case3 i t out ended =>
      cases done
      rfl

theorem mbedtlsLoop_length {hmac : HmacFunction} {prk : Bytes} {comboLen : Nat}
    {iterations outLen : UInt32} {i : Nat} {combo : Bytes} {tmpOut : Digest}
    {offset : Nat} {out written : Bytes}
    (done :
      mbedtlsLoop hmac prk comboLen iterations outLen i combo tmpOut offset
        out = .ok written) :
    written.length = out.length := by
  fun_induction mbedtlsLoop hmac prk comboLen iterations outLen i combo tmpOut
      offset out with
  | case1 i combo tmpOut offset out running inductionHypothesis =>
      simp only [outcome_bind_eq_ok, orUndefined_eq_ok] at done
      obtain ⟨_, _, combo', _, stored, isStored, done⟩ := done
      rw [inductionHypothesis combo' stored done, store_length isStored]
  | case2 i combo tmpOut offset out ended =>
      cases done
      rfl

theorem hkdfSha256_length {hmac : HmacFunction} {sizes : BufSizes}
    {backend : CryptoBackend} {secret salt info combo out written : Bytes}
    (done :
      hkdfSha256 hmac sizes backend secret salt info combo out =
        .ok written) :
    written.length = out.length := by
  unfold hkdfSha256 at done
  rw [hkdfExtract_eq, outcome_ok_bind] at done
  unfold hkdfExpand at done
  rw [if_neg (by simp)] at done
  dsimp only at done
  split at done
  · cases done
  · cases backend with
    | tinycrypt =>
        exact tinycryptLoop_length done
    | mbedtls =>
        unfold mbedtlsExpand at done
        dsimp only at done
        split at done
        · cases done
        · obtain ⟨combo', _, done⟩ := outcome_bind_eq_ok.mp done
          exact mbedtlsLoop_length done

/-! ## Devices -/

/-- What the buffers of `hkdf_sha_256` hold before a call. -/
structure HkdfBuffers (sizes : BufSizes) where
  combo : Bytes
  out : Nat → Bytes
  combo_length : combo.length = sizes.infoDefaultSize
  out_length : ∀ length, (out length).length = length

/-- A platform whose wrapper is built with one of the libraries. -/
def withBackend (platform : Platform) (hmac : HmacFunction)
    {sizes : BufSizes} (backend : CryptoBackend)
    (buffers : HkdfBuffers sizes) : Platform :=
  { platform with
    hkdfSha256 := fun secret salt info outLen =>
      (hkdfSha256 hmac sizes backend secret salt info buffers.combo
        (buffers.out outLen)).toOption
    hkdfSha256_length := by
      intro secret salt info outLen out written
      rw [← buffers.out_length outLen]
      cases done :
          hkdfSha256 hmac sizes backend secret salt info buffers.combo
            (buffers.out outLen) with
      | error fault =>
          rw [done] at written
          cases written
      | ok result =>
          rw [done] at written
          cases written
          exact hkdfSha256_length done }

/-- A platform that derives keys with HKDF of RFC 5869. -/
def withStandardHkdf (platform : Platform) (hmac : HmacFunction) : Platform :=
  { platform with
    hkdfSha256 := fun secret salt info outLen =>
      some (standardHkdf hmac secret salt info outLen)
    hkdfSha256_length := by
      intro secret salt info outLen out written
      cases written
      exact outputKeyingMaterial_length _ _ _ _ }

/-- The platforms differ at most in derivations that OSCORE does not make. -/
structure BehavesLike (left right : Platform) : Prop where
  aeadEncrypt : left.aeadEncrypt = right.aeadEncrypt
  aeadDecrypt : left.aeadDecrypt = right.aeadDecrypt
  cbor : left.toCborEncoder = right.toCborEncoder
  derive : ∀ cc id type outLen, outLen ≤ 16 →
    Oscore.derive left cc id type outLen =
      Oscore.derive right cc id type outLen

theorem withBackend_hkdfSha256 {platform : Platform} {hmac : HmacFunction}
    {sizes : BufSizes} {backend : CryptoBackend} {buffers : HkdfBuffers sizes}
    {secret salt info : Bytes} {outLen : Nat} (short : outLen ≤ 16)
    (infoFits : info.length ≤ maxInfoLen) :
    (withBackend platform hmac backend buffers).hkdfSha256 secret salt info
        outLen =
      (withStandardHkdf platform hmac).hkdfSha256 secret salt info outLen := by
  have room : maxInfoLen ≤ sizes.infoDefaultSize - 33 := by
    cases sizes <;> decide
  have length := buffers.out_length outLen
  have computed :=
    @hkdfSha256_eq hmac sizes backend secret salt info buffers.combo
      (buffers.out outLen) (by omega) buffers.combo_length
      (infoFits.trans room)
  change (hkdfSha256 hmac sizes backend secret salt info buffers.combo
    (buffers.out outLen)).toOption = _
  rw [computed, length]
  rfl

theorem oscoreCreateHkdfInfo_length {cbor : CborEncoder}
    {id idContext info : Bytes} {aeadAlg : AeadAlgorithm} {type : DeriveType}
    (created :
      oscoreCreateHkdfInfo cbor id idContext aeadAlg type = .ok info) :
    info.length ≤ maxInfoLen := by
  unfold oscoreCreateHkdfInfo at created
  dsimp only at created
  split at created
  · cases created
    assumption
  · cases created

/-- The infos of OSCORE fit into the buffer of MBEDTLS. -/
theorem withBackend_behavesLike (platform : Platform) (hmac : HmacFunction)
    {sizes : BufSizes} (backend : CryptoBackend)
    (buffers : HkdfBuffers sizes) :
    BehavesLike (withBackend platform hmac backend buffers)
      (withStandardHkdf platform hmac) := by
  refine ⟨rfl, rfl, rfl, ?_⟩
  intro cc id type outLen short
  unfold Oscore.derive
  change
    oscoreCreateHkdfInfo platform.toCborEncoder id cc.idContext cc.aeadAlg
      type >>= _ =
    oscoreCreateHkdfInfo platform.toCborEncoder id cc.idContext cc.aeadAlg
      type >>= _
  cases created :
      oscoreCreateHkdfInfo platform.toCborEncoder id cc.idContext cc.aeadAlg
        type with
  | error fault =>
      rfl
  | ok info =>
      have fits := oscoreCreateHkdfInfo_length created
      rw [outcome_ok_bind, outcome_ok_bind,
        withBackend_hkdfSha256 short fits]

section Congruence

variable {left right : Platform} (like : BehavesLike left right)

include like

theorem BehavesLike.commonIv (cc : CommonContext) :
    deriveCommonIv left cc = deriveCommonIv right cc :=
  like.derive cc [] .iv commonIvLen (by decide)

theorem BehavesLike.senderKey (cc : CommonContext) (senderId : Bytes) :
    deriveSenderKey left cc senderId = deriveSenderKey right cc senderId :=
  like.derive cc senderId .key senderKeyLen (by decide)

theorem BehavesLike.recipientKey (cc : CommonContext) (recipientId : Bytes) :
    deriveRecipientKey left cc recipientId =
      deriveRecipientKey right cc recipientId :=
  like.derive cc recipientId .key recipientKeyLen (by decide)

theorem BehavesLike.oscoreContextInit (params : OscoreInitParams)
    (buffers : UnwrittenBuffers) :
    Oscore.oscoreContextInit left params buffers =
      Oscore.oscoreContextInit right params buffers := by
  unfold Oscore.oscoreContextInit
  simp only [like.commonIv, like.senderKey, like.recipientKey]

theorem BehavesLike.initialised (params : OscoreInitParams) (c : Context) :
    Initialised left params c ↔ Initialised right params c := by
  unfold Initialised
  simp only [like.oscoreContextInit]

theorem BehavesLike.contextUpdate :
    Oscore.contextUpdate left = Oscore.contextUpdate right := by
  funext dev options piv kidContext
  unfold Oscore.contextUpdate serverUpdate kidContextUpdate
    nonceAndAadUpdate
  simp only [like.commonIv, like.senderKey, like.recipientKey, like.cbor]

theorem BehavesLike.coap2oscore :
    Oscore.coap2oscore left = Oscore.coap2oscore right := by
  funext input capacity
  unfold Oscore.coap2oscore coap2oscorePacket optionValue requestOption
    plaintextEncrypt oscoreCoseEncrypt
  rw [like.contextUpdate, like.aeadEncrypt, like.cbor]

theorem BehavesLike.oscore2coap :
    Oscore.oscore2coap left = Oscore.oscore2coap right := by
  funext input capacity
  unfold Oscore.oscore2coap oscorePacketDecrypt requestAccept payloadDecrypt
    oscoreCoseDecrypt
  rw [like.contextUpdate, like.aeadDecrypt, like.cbor]

theorem BehavesLike.callMachine :
    Oscore.callMachine left = Oscore.callMachine right := by
  funext event
  have runs : ∀ call : Call, call.run left = call.run right := by
    intro call
    cases call with
    | coap2oscore input capacity =>
        unfold Call.run
        rw [like.coap2oscore]
    | oscore2coap input capacity =>
        unfold Call.run
        rw [like.oscore2coap]
  unfold Oscore.callMachine
  rw [runs]

end Congruence

/-- Devices built with different libraries initialise the same contexts and
handle every call alike, and in every run their keys are those of RFC 5869. -/
theorem backends_interoperate (platform : Platform) (hmac : HmacFunction)
    {leftSizes rightSizes : BufSizes} (left right : CryptoBackend)
    (leftBuffers : HkdfBuffers leftSizes)
    (rightBuffers : HkdfBuffers rightSizes) :
    (∀ params buffers,
      oscoreContextInit (withBackend platform hmac left leftBuffers) params
          buffers =
        oscoreContextInit (withBackend platform hmac right rightBuffers)
          params buffers) ∧
    callMachine (withBackend platform hmac left leftBuffers) =
      callMachine (withBackend platform hmac right rightBuffers) ∧
    (platform.toCborEncoder.LengthsMonotone →
      ∀ params first last events,
        Initialised (withBackend platform hmac left leftBuffers) params
          first →
        CallRun (withBackend platform hmac left leftBuffers) first events
          last →
        last.cc.commonIv =
            hkdfOutput platform.toCborEncoder (standardHkdf hmac) params
              last.cc.idContext [] .iv 13 ∧
          last.sc.senderKey =
            hkdfOutput platform.toCborEncoder (standardHkdf hmac) params
              last.cc.idContext params.senderId .key 16 ∧
          last.rc.recipientKey =
            hkdfOutput platform.toCborEncoder (standardHkdf hmac) params
              last.cc.idContext params.recipientId .key 16) := by
  have leftLike := withBackend_behavesLike platform hmac left leftBuffers
  have rightLike := withBackend_behavesLike platform hmac right rightBuffers
  refine ⟨?_, ?_, ?_⟩
  · intro params buffers
    rw [leftLike.oscoreContextInit, rightLike.oscoreContextInit]
  · rw [leftLike.callMachine, rightLike.callMachine]
  · intro lengths params first last events initialised run
    unfold CallRun at run
    rw [leftLike.callMachine] at run
    have standard := (leftLike.initialised params first).mp initialised
    have has := standard.hasParameters.of_same (CallRun.sameParameters run)
    have total :
        HkdfTotal (withStandardHkdf platform hmac) (standardHkdf hmac) :=
      fun _ _ _ _ => rfl
    have keys :=
      CallRun.keysDerived total lengths run (initialised_keysDerived standard)
    obtain ⟨_, _, iv⟩ := (derive_eq_ok total).mp keys.commonIv
    obtain ⟨_, _, sender⟩ := (derive_eq_ok total).mp keys.senderKey
    obtain ⟨_, _, recipient⟩ := (derive_eq_ok total).mp keys.recipientKey
    rw [has.masterSecret, has.masterSalt, has.aeadAlg] at iv sender recipient
    rw [has.senderId] at sender
    rw [has.recipientId] at recipient
    exact ⟨iv, sender, recipient⟩

/-! ## The server of test vector T6 -/

private def t1Prk : Bytes :=
  [0xBF, 0x4F, 0x72, 0xDE, 0x4E, 0xED, 0x44, 0xA4, 0x95, 0x13, 0x90, 0xE7,
    0x12, 0x78, 0x49, 0xDE, 0x97, 0xD6, 0x17, 0xB1, 0x94, 0x0F, 0x1A, 0xB6,
    0xC1, 0x82, 0xB8, 0xA1, 0x47, 0xDB, 0x8D, 0xC4]

/-- The calls of HMAC in the derivations without and with the ID context. -/
private def t5HmacRecords : List ((Bytes × Bytes) × Bytes) :=
  let info := fun id idContext =>
    hkdfInfo canonicalCbor id idContext .oscoreAesCcm16_64_128
  [ ((t1MasterSalt, t1MasterSecret), t1Prk),
    ((t1Prk, info [] [] .iv ++ [1]),
      [0x46, 0x22, 0xD4, 0xDD, 0x6D, 0x94, 0x41, 0x68, 0xEE, 0xFB, 0x54, 0x98,
        0x7C, 0xEC, 0x91, 0x3D, 0x38, 0x88, 0x34, 6, 0xA7, 0x8A, 0x53, 0xAA,
        0x78, 0xC8, 0xF5, 0x5F, 0xF1, 0xE2, 0xF5, 0x30]),
    ((t1Prk, info [] [] .key ++ [1]),
      [0xF0, 0x91, 0x0E, 0xD7, 0x29, 0x5E, 0x6A, 0xD4, 0xB5, 0x4F, 0xC7, 0x93,
        0x15, 0x43, 2, 0xFF, 0xD1, 0x22, 0x87, 0xF8, 0x3E, 0x24, 0x2E, 0x47,
        0x7F, 0xE6, 0x1D, 0x3B, 0x7B, 0xAF, 0x7D, 0x3D]),
    ((t1Prk, info [1] [] .key ++ [1]),
      [0xFF, 0xB1, 0x4E, 9, 0x3C, 0x94, 0xC9, 0xCA, 0xC9, 0x47, 0x16, 0x48,
        0xB4, 0xF9, 0x87, 0x10, 0xCA, 0xEC, 0x2C, 0xE7, 0xF5, 0x84, 0x5A,
        0x41, 0x2B, 0xF2, 0x37, 0x6E, 0xCA, 0xF1, 0x58, 3]),
    ((t1Prk, info [] t5IdContext .iv ++ [1]),
      [0x2C, 0xA5, 0x8F, 0xB8, 0x5F, 0xF1, 0xB8, 0x1C, 0x0B, 0x71, 0x81, 0xB8,
        0x5E, 0xF4, 0xA3, 0xB3, 0xBD, 0x7C, 0xC1, 0x23, 0xCE, 0x21, 0x33,
        0x4E, 0xA9, 0x40, 0x23, 0x58, 0x17, 0x23, 0x88, 0x0C]),
    ((t1Prk, info [] t5IdContext .key ++ [1]),
      [0xAF, 0x2A, 0x13, 0, 0xA5, 0xE9, 0x57, 0x88, 0xB3, 0x56, 0x33, 0x6E,
        0xEE, 0xCD, 0x2B, 0x92, 0x15, 0xA8, 0xD9, 0xD4, 0x73, 0x87, 0xFF,
        0xD3, 0xDD, 0xD0, 0x90, 0x90, 0x34, 0x5A, 0x54, 0xC8]),
    ((t1Prk, info [1] t5IdContext .key ++ [1]),
      [0xE3, 0x9A, 0x0C, 0x7C, 0x77, 0xB4, 0x3F, 3, 0xB4, 0xB3, 0x9A, 0xB9,
        0xA2, 0x68, 0x69, 0x9F, 0x10, 0x27, 0xDB, 0x96, 0x1D, 0x33, 0xF8,
        0xCA, 0x0D, 0x6E, 0xEA, 0xEF, 0x4C, 0x6B, 0x63, 0x4B]) ]

/-- HMAC with these records, and zeros for any other message. -/
private def t5Hmac : HmacFunction := fun key message =>
  match (t5HmacRecords.find? fun record => record.1 = (key, message)) with
  | some record =>
      if isDigest : record.2.length = 32 then
        ⟨record.2, isDigest⟩
      else
        ⟨zeroSalt, zeroSalt_length⟩
  | none => ⟨zeroSalt, zeroSalt_length⟩

private def zeroHkdfBuffers : HkdfBuffers .rpk where
  combo := List.replicate 250 0
  out length := List.replicate length 0
  combo_length := List.length_replicate
  out_length _ := List.length_replicate

/-- The server of test vector T6, built with MBEDTLS. -/
private def t6Mbedtls : Platform :=
  withBackend t5Platform t5Hmac .mbedtls zeroHkdfBuffers

/-- And with TINYCRYPT. -/
private def t6Tinycrypt : Platform :=
  withBackend t5Platform t5Hmac .tinycrypt zeroHkdfBuffers

/-- Both builds of the server of test vector T6 derive other keys when they
follow a client to the empty ID context. -/
theorem backends_interoperate_t6 :
    (t6Switches t6Mbedtls).output = .ok (some t1Request) ∧
      (t6Switches t6Mbedtls).before.cc.idContext = t5IdContext ∧
      (t6Switches t6Mbedtls).after.cc.idContext = [] ∧
      callMachine t6Tinycrypt (t6Switches t6Mbedtls) ∧
      (t6Switches t6Mbedtls).after.sc.senderKey =
        hkdfOutput canonicalCbor (standardHkdf t5Hmac) t6ServerParams [] [1]
          .key 16 ∧
      (t6Switches t6Tinycrypt).after.sc.senderKey =
        hkdfOutput canonicalCbor (standardHkdf t5Hmac) t6ServerParams [] [1]
          .key 16 := by
  have mbedtlsServes : callMachine t6Mbedtls (t6Serves t6Mbedtls) :=
    callEvent_step (by decide +kernel)
  have mbedtlsSwitches : callMachine t6Mbedtls (t6Switches t6Mbedtls) :=
    callEvent_step (by decide +kernel)
  have tinycryptServes : callMachine t6Tinycrypt (t6Serves t6Tinycrypt) :=
    callEvent_step (by decide +kernel)
  have tinycryptSwitches : callMachine t6Tinycrypt (t6Switches t6Tinycrypt) :=
    callEvent_step (by decide +kernel)
  have initialised : Initialised t6Mbedtls t6ServerParams t6Server :=
    ⟨zeroBuffers, by decide +kernel⟩
  have agree :=
    backends_interoperate t5Platform t5Hmac .mbedtls .tinycrypt
      zeroHkdfBuffers zeroHkdfBuffers
  have otherInitialised : Initialised t6Tinycrypt t6ServerParams t6Server := by
    obtain ⟨buffers, done⟩ := initialised
    exact ⟨buffers, (agree.1 _ _).symm.trans done⟩
  have mbedtlsKeys :=
    (agree.2.2 canonicalCbor_lengthsMonotone t6ServerParams t6Server _ _
      initialised (.cons mbedtlsServes (.cons mbedtlsSwitches (.nil _)))).2.1
  have tinycryptKeys :=
    ((backends_interoperate t5Platform t5Hmac .tinycrypt .mbedtls
      zeroHkdfBuffers zeroHkdfBuffers).2.2 canonicalCbor_lengthsMonotone
      t6ServerParams t6Server _ _ otherInitialised
      (.cons tinycryptServes (.cons tinycryptSwitches (.nil _)))).2.1
  have mbedtlsContext : (t6Switches t6Mbedtls).after.cc.idContext = [] := by
    decide +kernel
  have tinycryptContext :
      (t6Switches t6Tinycrypt).after.cc.idContext = [] := by
    decide +kernel
  rw [mbedtlsContext] at mbedtlsKeys
  rw [tinycryptContext] at tinycryptKeys
  refine
    ⟨by decide +kernel, by decide +kernel, mbedtlsContext, ?_, mbedtlsKeys,
      tinycryptKeys⟩
  exact agree.2.1 ▸ mbedtlsSwitches

end UoscoreUedhoc.Oscore

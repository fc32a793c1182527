import UoscoreUedhoc.Edhoc.Delivery
import UoscoreUedhoc.Edhoc.PlaintextDelivery
import UoscoreUedhoc.Lib.Stores

/-!
# Buffers of ciphertexts

`ciphertext_gen` checks its copies into the plaintext and the lengths of key
and tag, but sets `*ciphertext_len` to the length of the plaintext without
having read it.  So the size of the output buffer bounds nothing.
-/

namespace UoscoreUedhoc.Edhoc

open UoscoreUedhoc
open UoscoreUedhoc.Stores
open Update

/-! ## Stores -/

/-- The buffers that `ciphertext_gen` writes its texts, key and tag to. -/
inductive GenBuffer where
  | plaintext
  | key
  | tag
  | ciphertext
  deriving DecidableEq, Repr

/-- Their sizes, the last of which the caller passes. -/
def GenBuffer.size (ciphertextSize : Nat) : GenBuffer → Nat
  | .plaintext => plaintextDefaultSize
  | .key => ciphertext2DefaultSize
  | .tag => macDefaultSize
  | .ciphertext => ciphertextSize

/-- A store into one of the buffers. -/
structure GenStore where
  buffer : GenBuffer
  store : Store UInt8

/-- The stores made so far. -/
abbrev GenLog := List GenStore

def storeInto (buffer : GenBuffer) (offset : Nat) (bytes : Bytes) :
    Update GenLog PUnit :=
  modify (· ++ [⟨buffer, offset, bytes⟩])

/-- `_memcpy_s` into the plaintext from `offset` on. -/
def copyPlaintext (offset : Nat) (source : Bytes) : Update GenLog Bytes := do
  let copied ←
    .lift (memcpyS (plaintextDefaultSize - offset) source source.length)
  storeInto .plaintext offset copied
  pure copied

/-! ## `ciphertext_gen` -/

section

variable (platform : EdhocPlatform)

/-- The part of `ciphertext_gen` that copies `ID_CRED_x` and the signature or
MAC: `plaintext_len` behind it. -/
def frontStores (ctxt : Ciphertext) (idCred signatureOrMacEnc : Bytes) :
    Update GenLog Bytes :=
  match ctxt with
  | .ciphertext2 | .ciphertext3 => do
      let kid ← .lift (idCred2Kid platform idCred)
      let idCredX ← copyPlaintext 0 (if kid.length ≠ 0 then kid else idCred)
      let signatureOrMacEnc ← copyPlaintext idCredX.length signatureOrMacEnc
      pure (idCredX ++ signatureOrMacEnc)
  | .ciphertext4 => pure []

/-- The part that copies the EAD. -/
def eadStores (plaintext ead : Bytes) : Update GenLog Bytes :=
  if 0 < ead.length then do
    let ead ← copyPlaintext plaintext.length ead
    pure (plaintext ++ ead)
  else
    pure plaintext

/-- `plaintextEncode` with its stores. -/
def plaintextStores (ctxt : Ciphertext) (idCred signatureOrMac ead : Bytes) :
    Update GenLog Bytes := do
  .lift
    (checkBufferSize sgnOrMacDefaultSize
      ((signatureOrMac.length + 2) % 2 ^ 32))
  let signatureOrMacEnc ←
    .lift
      (encodeByteString platform signatureOrMac (signatureOrMac.length + 2))
  let plaintext ← frontStores platform ctxt idCred signatureOrMacEnc
  eadStores plaintext ead

/-- `key_gen` with its stores into the key. -/
def keyStores (ctxt : Ciphertext) (edhocHash : HashAlg) (prk th : Bytes)
    (keyLen ivLen : Nat) : Update GenLog (Bytes × Bytes) :=
  match ctxt with
  | .ciphertext2 => do
      let key ←
        .lift (okmCalc platform edhocHash prk th keystream2Label [] keyLen)
      storeInto .key 0 key
      pure (key, [])
  | .ciphertext3 => do
      let key ← .lift (okmCalc platform edhocHash prk th k3Label [] keyLen)
      storeInto .key 0 key
      let iv ← .lift (okmCalc platform edhocHash prk th iv3Label [] ivLen)
      pure (key, iv)
  | .ciphertext4 => do
      let key ←
        .lift (edhocExporter platform edhocHash prk th edhocK4Label keyLen)
      storeInto .key 0 key
      let iv ←
        .lift (edhocExporter platform edhocHash prk th edhocIv4Label ivLen)
      pure (key, iv)

/-- `ciphertext_encrypt_decrypt` with its stores, and the tag: the new value of
`*ciphertext_len`. -/
def sealStores (ctxt : Ciphertext) (tagLen : Nat)
    (th plaintext key iv : Bytes) : Update GenLog Nat :=
  match ctxt with
  | .ciphertext2 => do
      storeInto .ciphertext 0 (xorArrays plaintext key)
      pure plaintext.length
  | .ciphertext3 | .ciphertext4 => do
      let aad ← .lift (associatedDataEncode platform th)
      let ciphertext ←
        .lift
          (tryExpect
            (platform.crypto.aeadEncrypt plaintext key iv aad tagLen))
      storeInto .ciphertext 0 ciphertext
      storeInto .tag 0 ((ciphertext.drop plaintext.length).take tagLen)
      pure (plaintext.length + tagLen)

/-- `ciphertext_gen` with its stores: the final value of `*ciphertext_len`.  The
initial one is not read. -/
def ciphertextGenStores (ctxt : Ciphertext) (suite : Suite)
    (idCred signatureOrMac ead prk th : Bytes) : Update GenLog Nat := do
  let plaintext ← plaintextStores platform ctxt idCred signatureOrMac ead
  let keyLen := keyLength ctxt suite plaintext.length
  .lift (checkBufferSize ciphertext2DefaultSize keyLen)
  let ivLen := getAeadIvLen suite.edhocAead
  .lift (checkBufferSize aeadIvDefaultSize ivLen)
  let (key, iv) ← keyStores platform ctxt suite.edhocHash prk th keyLen ivLen
  let tagLen := getAeadMacLen suite.edhocAead
  .lift (checkBufferSize macDefaultSize tagLen)
  sealStores platform ctxt tagLen th plaintext key iv

end

/-! ## The property -/

/-- All stores lie in their buffers. -/
def StoresInside (ciphertextSize : Nat) (log : GenLog) : Prop :=
  ∀ entry ∈ log, entry.store.InBounds (entry.buffer.size ciphertextSize)

/-- The run returns an error, or `ok` with a length within the output buffer,
and stores nothing behind a buffer. -/
def StaysInBuffers (ciphertextSize : Nat) (run : Outcome Nat × GenLog) :
    Prop :=
  StoresInside ciphertextSize run.2 ∧
    ((∃ code, run.1 = fail code) ∨
      ∃ length, run.1 = .ok length ∧ length ≤ ciphertextSize)

/-! ## The condition -/

section

variable (platform : EdhocPlatform)

/-- The plaintext for the `kid` that `id_cred2kid` finds. -/
def plaintextOf (ctxt : Ciphertext) (idCred kid signatureOrMac ead : Bytes) :
    Bytes :=
  match ctxt with
  | .ciphertext2 | .ciphertext3 =>
      (if kid.length ≠ 0 then kid else idCred) ++
        platform.cbor.bstr signatureOrMac ++ ead
  | .ciphertext4 => ead

/-- The plaintext is made: its parts fit into their buffers. -/
def MakesPlaintext (ctxt : Ciphertext)
    (idCred signatureOrMac ead plaintext : Bytes) : Prop :=
  (signatureOrMac.length + 2) % 2 ^ 32 ≤ sgnOrMacDefaultSize ∧
    (platform.cbor.bstr signatureOrMac).length ≤ signatureOrMac.length + 2 ∧
    plaintext.length ≤ plaintextDefaultSize ∧
    ∃ kid, (ctxt ≠ .ciphertext4 → idCred2Kid platform idCred = .ok kid) ∧
      plaintext = plaintextOf platform ctxt idCred kid signatureOrMac ead

/-- The keys are derived and the AEAD, where it is called, succeeds. -/
def MakesCiphertext (ctxt : Ciphertext) (suite : Suite)
    (prk th plaintext : Bytes) : Prop :=
  ∃ key iv,
    keyGen platform ctxt suite.edhocHash prk th
        (keyLength ctxt suite plaintext.length)
        (getAeadIvLen suite.edhocAead) = .ok (key, iv) ∧
      (ctxt ≠ .ciphertext2 →
        (associatedData platform.cbor th).length ≤
            associatedDataDefaultSize ∧
          ∃ ciphertext,
            platform.crypto.aeadEncrypt plaintext key iv
              (associatedData platform.cbor th)
              (getAeadMacLen suite.edhocAead) = some ciphertext)

/-- The length of a ciphertext: that of the plaintext, with the tag where there
is one. -/
def ciphertextLen (ctxt : Ciphertext) (suite : Suite) (textLen : Nat) : Nat :=
  match ctxt with
  | .ciphertext2 => textLen
  | .ciphertext3 | .ciphertext4 => textLen + getAeadMacLen suite.edhocAead

/-- A ciphertext that is made has room in the output buffer. -/
def CiphertextFits (ctxt : Ciphertext) (suite : Suite)
    (idCred signatureOrMac ead prk th : Bytes) (ciphertextSize : Nat) :
    Prop :=
  ∀ plaintext,
    MakesPlaintext platform ctxt idCred signatureOrMac ead plaintext →
      MakesCiphertext platform ctxt suite prk th plaintext →
        ciphertextLen ctxt suite plaintext.length ≤ ciphertextSize

end

/-! ## Defined steps -/

section Defined

variable {platform : EdhocPlatform}

theorem tryExpect_defined {α : Type} {result : Option α} :
    tryExpect result ≠ .error .undefinedBehaviour := by
  cases result <;> simp [tryExpect, fail]

theorem okmCalc_defined {edhocHash : HashAlg}
    {prk th label context : Bytes} {okmLen : Nat} :
    okmCalc platform edhocHash prk th label context okmLen ≠
      .error .undefinedBehaviour :=
  outcome_bind_defined tryExpect_defined fun _ _ => tryExpect_defined

theorem keyGen_defined {ctxt : Ciphertext} {edhocHash : HashAlg}
    {prk th : Bytes} {keyLen ivLen : Nat} :
    keyGen platform ctxt edhocHash prk th keyLen ivLen ≠
      .error .undefinedBehaviour := by
  cases ctxt with
  | ciphertext2 =>
      exact outcome_bind_defined okmCalc_defined fun _ _ => by simp
  | ciphertext3 | ciphertext4 =>
      exact
        outcome_bind_defined okmCalc_defined fun _ _ =>
          outcome_bind_defined okmCalc_defined fun _ _ => by simp

theorem idCred2Kid_defined {idCred : Bytes} :
    idCred2Kid platform idCred ≠ .error .undefinedBehaviour := by
  refine outcome_bind_defined tryExpect_defined fun map _ => ?_
  split
  · exact tryExpect_defined
  · simp

theorem plaintextEncode_defined {ctxt : Ciphertext}
    {idCred signatureOrMac ead : Bytes} :
    plaintextEncode platform ctxt idCred signatureOrMac ead ≠
      .error .undefinedBehaviour := by
  have copied : ∀ (room : Nat) (source : Bytes),
      memcpyS room source source.length ≠ .error .undefinedBehaviour :=
    fun _ _ => memcpyS_defined (Nat.le_refl _)
  have appended : ∀ plaintext : Bytes,
      (if 0 < ead.length then do
        let ead ←
          memcpyS (plaintextDefaultSize - plaintext.length) ead ead.length
        .ok (plaintext ++ ead)
      else
        .ok plaintext : Outcome Bytes) ≠ .error .undefinedBehaviour := by
    intro plaintext
    split
    · exact outcome_bind_defined (copied _ _) fun _ _ => by simp
    · simp
  refine outcome_bind_defined checkBufferSize_defined fun _ _ => ?_
  refine outcome_bind_defined tryExpect_defined fun enc _ => ?_
  cases ctxt with
  | ciphertext2 | ciphertext3 =>
      refine outcome_bind_defined idCred2Kid_defined fun kid _ => ?_
      refine outcome_bind_defined (copied _ _) fun idCredX _ => ?_
      refine outcome_bind_defined (copied _ _) fun enc _ => ?_
      exact appended (idCredX ++ enc)
  | ciphertext4 =>
      exact appended []

end Defined

/-! ## The plaintext -/

section Stores

variable {size offset : Nat} {buffer : GenBuffer} {bytes source : Bytes}

@[simp]
theorem exec_storeInto (log : GenLog) :
    exec (storeInto buffer offset bytes) log =
      (.ok PUnit.unit, log ++ [⟨buffer, offset, bytes⟩]) := rfl

theorem storeInto_inside (fits : offset + bytes.length ≤ buffer.size size) :
    Keeps (Preserves (StoresInside size)) (storeInto buffer offset bytes) := by
  intro log inside entry member
  rcases List.mem_append.mp member with before | new
  · exact inside entry before
  · rw [List.mem_singleton.mp new]
    exact fits

theorem storeInto_returns :
    Returns (storeInto buffer offset bytes) (.ok PUnit.unit) :=
  Returns.modify

theorem copyPlaintext_returns :
    Returns (copyPlaintext offset source)
      (memcpyS (plaintextDefaultSize - offset) source source.length) := by
  intro log
  unfold copyPlaintext
  rw [exec_lift_bind]
  cases memcpyS (plaintextDefaultSize - offset) source source.length with
  | error fault =>
      rfl
  | ok copied =>
      rfl

/-- A copy that is not refused fits. -/
theorem copyPlaintext_inside (started : offset ≤ plaintextDefaultSize) :
    Keeps (Preserves (StoresInside size)) (copyPlaintext offset source) := by
  refine Keeps.lift_bind fun copied done => ?_
  obtain ⟨fits, rfl⟩ := memcpyS_whole_eq_ok.mp done
  refine Keeps.bind (storeInto_inside ?_) fun _ => Keeps.pure _
  change offset + copied.length ≤ plaintextDefaultSize
  omega

theorem copyPlaintext_length {log after : GenLog} {copied : Bytes}
    (done : exec (copyPlaintext offset source) log = (.ok copied, after)) :
    copied = source ∧ source.length ≤ plaintextDefaultSize - offset := by
  have returned := @copyPlaintext_returns offset source log
  rw [done] at returned
  obtain ⟨fits, rfl⟩ := memcpyS_whole_eq_ok.mp returned.symm
  exact ⟨rfl, fits⟩

end Stores

section Plaintext

variable {platform : EdhocPlatform} {ctxt : Ciphertext}
  {idCred signatureOrMac ead : Bytes} {size : Nat}

theorem eadStores_returns (plaintext : Bytes) :
    Returns (eadStores plaintext ead)
      (if 0 < ead.length then do
        let ead ←
          memcpyS (plaintextDefaultSize - plaintext.length) ead ead.length
        .ok (plaintext ++ ead)
      else
        .ok plaintext) :=
  Returns.ite
    (Returns.bind copyPlaintext_returns fun _ => Returns.pure _)
    (Returns.pure _)

/-- The recorded run returns what `plaintextEncode` returns. -/
theorem plaintextStores_returns :
    Returns (plaintextStores platform ctxt idCred signatureOrMac ead)
      (plaintextEncode platform ctxt idCred signatureOrMac ead) := by
  refine Returns.bind (Returns.lift _) fun _ => ?_
  refine Returns.bind (Returns.lift _) fun signatureOrMacEnc => ?_
  have front :
      Returns (frontStores platform .ciphertext2 idCred signatureOrMacEnc)
        (do
          let kid ← idCred2Kid platform idCred
          let idCredX := if kid.length ≠ 0 then kid else idCred
          let idCredX ← memcpyS plaintextDefaultSize idCredX idCredX.length
          let signatureOrMacEnc ←
            memcpyS (plaintextDefaultSize - idCredX.length) signatureOrMacEnc
              signatureOrMacEnc.length
          .ok (idCredX ++ signatureOrMacEnc)) := by
    refine Returns.bind (Returns.lift _) fun kid => ?_
    refine Returns.bind copyPlaintext_returns fun idCredX => ?_
    exact Returns.bind copyPlaintext_returns fun _ => Returns.pure _
  cases ctxt with
  | ciphertext2 | ciphertext3 =>
      have whole := Returns.bind front fun plaintext =>
        @eadStores_returns ead plaintext
      simp only [bind_assoc] at whole
      exact whole
  | ciphertext4 =>
      exact eadStores_returns []

theorem plaintextEncode_iff_makes {plaintext : Bytes} :
    plaintextEncode platform ctxt idCred signatureOrMac ead =
        .ok plaintext ↔
      MakesPlaintext platform ctxt idCred signatureOrMac ead plaintext := by
  have carried : ∀ ctxt, ctxt ≠ .ciphertext4 →
      (∀ kid, plaintextOf platform ctxt idCred kid signatureOrMac ead =
        (if kid.length ≠ 0 then kid else idCred) ++
          platform.cbor.bstr signatureOrMac ++ ead) →
      (plaintextEncode platform ctxt idCred signatureOrMac ead =
          .ok plaintext ↔
        MakesPlaintext platform ctxt idCred signatureOrMac ead plaintext) := by
    intro ctxt carriesIdCred isPlaintext
    unfold MakesPlaintext
    simp only [carriesIdCred, ne_eq, not_false_eq_true, true_implies,
      isPlaintext]
    constructor
    · intro encoded
      obtain ⟨kid, isKid⟩ :
          ∃ kid, idCred2Kid platform idCred = .ok kid := by
        unfold plaintextEncode at encoded
        cases ctxt with
        | ciphertext2 | ciphertext3 =>
            simp only [outcome_bind_eq_ok] at encoded
            obtain ⟨_, _, _, _, kid, isKid, _⟩ := encoded
            exact ⟨kid, isKid⟩
        | ciphertext4 =>
            exact absurd rfl carriesIdCred
      obtain ⟨room, encFits, fits, same⟩ :=
        (plaintextEncode_of_idCred2Kid carriesIdCred isKid).mp encoded
      rw [← same] at fits
      exact ⟨room, encFits, fits, kid, isKid, same⟩
    · intro made
      obtain ⟨room, encFits, fits, kid, isKid, rfl⟩ := made
      exact
        (plaintextEncode_of_idCred2Kid carriesIdCred isKid).mpr
          ⟨room, encFits, fits, rfl⟩
  cases ctxt with
  | ciphertext2 =>
      exact carried .ciphertext2 (by simp) fun _ => rfl
  | ciphertext3 =>
      exact carried .ciphertext3 (by simp) fun _ => rfl
  | ciphertext4 =>
      unfold plaintextEncode encodeByteString MakesPlaintext plaintextOf
      dsimp only
      simp only [outcome_bind_eq_ok, checkBufferSize_eq_ok, cborEncode_eq_ok,
        outcome_ok_bind, ne_eq, not_true_eq_false, false_implies, true_and,
        exists_const]
      by_cases hasEad : 0 < ead.length
      · simp only [if_pos hasEad, outcome_bind_eq_ok, memcpyS_whole_eq_ok,
          Except.ok.injEq, List.length_nil, Nat.sub_zero, List.nil_append]
        constructor
        · rintro ⟨room, _, ⟨encFits, _⟩, _, ⟨fits, rfl⟩, rfl⟩
          exact ⟨room, encFits, fits, rfl⟩
        · rintro ⟨room, encFits, fits, rfl⟩
          exact ⟨room, _, ⟨encFits, rfl⟩, _, ⟨fits, rfl⟩, rfl⟩
      · have noEad : ead = [] := List.eq_nil_of_length_eq_zero (by omega)
        simp only [noEad, List.length_nil, Nat.lt_irrefl, if_false,
          Except.ok.injEq]
        constructor
        · rintro ⟨room, _, ⟨encFits, _⟩, rfl⟩
          exact ⟨room, encFits, Nat.zero_le _, rfl⟩
        · rintro ⟨room, encFits, _, rfl⟩
          exact ⟨room, _, ⟨encFits, rfl⟩, rfl⟩

theorem frontStores_inside (signatureOrMacEnc : Bytes) :
    Keeps (Preserves (StoresInside size))
      (frontStores platform ctxt idCred signatureOrMacEnc) := by
  cases ctxt with
  | ciphertext2 | ciphertext3 =>
      refine Keeps.bind (Keeps.lift _) fun kid => ?_
      refine
        Keeps.bind_of_ok (copyPlaintext_inside (Nat.zero_le _))
          fun idCredX log between copied => ?_
      obtain ⟨rfl, fits⟩ := copyPlaintext_length copied
      exact
        Keeps.bind (copyPlaintext_inside fits) fun _ => Keeps.pure _
  | ciphertext4 =>
      exact Keeps.pure _

theorem frontStores_length {signatureOrMacEnc plaintext : Bytes}
    {log after : GenLog}
    (front :
      exec (frontStores platform ctxt idCred signatureOrMacEnc) log =
        (.ok plaintext, after)) :
    plaintext.length ≤ plaintextDefaultSize := by
  cases ctxt with
  | ciphertext2 | ciphertext3 =>
      unfold frontStores at front
      simp only [exec_bind_eq_ok, exec_pure, Prod.mk.injEq,
        Except.ok.injEq] at front
      obtain ⟨kid, _, _, idCredX, _, idCopied, enc, _, encCopied, rfl, _⟩ :=
        front
      obtain ⟨rfl, idFits⟩ := copyPlaintext_length idCopied
      obtain ⟨rfl, encFits⟩ := copyPlaintext_length encCopied
      rw [List.length_append]
      omega
  | ciphertext4 =>
      obtain rfl := Except.ok.inj (congrArg Prod.fst front)
      exact Nat.zero_le _

/-- No copy goes behind the plaintext. -/
theorem plaintextStores_inside :
    Keeps (Preserves (StoresInside size))
      (plaintextStores platform ctxt idCred signatureOrMac ead) := by
  refine Keeps.bind (Keeps.lift _) fun _ => ?_
  refine Keeps.bind (Keeps.lift _) fun signatureOrMacEnc => ?_
  refine
    Keeps.bind_of_ok (frontStores_inside _)
      fun plaintext log between front => ?_
  refine Keeps.ite ?_ (Keeps.pure _)
  refine Keeps.bind (copyPlaintext_inside ?_) fun _ => Keeps.pure _
  exact frontStores_length front

end Plaintext

/-! ## The ciphertext -/

section Sealing

variable {platform : EdhocPlatform} {ctxt : Ciphertext} {suite : Suite}
  {idCred signatureOrMac ead prk th plaintext key iv : Bytes}
  {size keyLen ivLen tagLen : Nat} {edhocHash : HashAlg}

theorem keyStores_returns :
    Returns (keyStores platform ctxt edhocHash prk th keyLen ivLen)
      (keyGen platform ctxt edhocHash prk th keyLen ivLen) := by
  cases ctxt with
  | ciphertext2 =>
      exact
        Returns.bind (Returns.lift _) fun key =>
          Returns.bind_of_ok storeInto_returns (Returns.pure _)
  | ciphertext3 | ciphertext4 =>
      exact
        Returns.bind (Returns.lift _) fun key =>
          Returns.bind_of_ok storeInto_returns
            (Returns.bind (Returns.lift _) fun iv => Returns.pure _)

theorem keyStores_inside (fits : keyLen ≤ ciphertext2DefaultSize) :
    Keeps (Preserves (StoresInside size))
      (keyStores platform ctxt edhocHash prk th keyLen ivLen) := by
  have stored : ∀ label key,
      okmCalc platform edhocHash prk th label [] keyLen = .ok key →
        Keeps (Preserves (StoresInside size)) (storeInto .key 0 key) := by
    intro label key calculated
    apply storeInto_inside
    rw [okmCalc_length calculated, Nat.zero_add]
    exact fits
  cases ctxt with
  | ciphertext2 =>
      refine Keeps.lift_bind fun key calculated => ?_
      exact Keeps.bind (stored _ key calculated) fun _ => Keeps.pure _
  | ciphertext3 | ciphertext4 =>
      refine Keeps.lift_bind fun key calculated => ?_
      refine Keeps.bind (stored _ key calculated) fun _ => ?_
      exact Keeps.bind (Keeps.lift _) fun _ => Keeps.pure _

/-- With room for plaintext and tag, nothing is stored behind the buffers. -/
theorem sealStores_inside
    (generated :
      keyGen platform ctxt suite.edhocHash prk th
          (keyLength ctxt suite plaintext.length)
          (getAeadIvLen suite.edhocAead) = .ok (key, iv))
    (room :
      MakesCiphertext platform ctxt suite prk th plaintext →
        ciphertextLen ctxt suite plaintext.length ≤ size) :
    Keeps (Preserves (StoresInside size))
      (sealStores platform ctxt (getAeadMacLen suite.edhocAead) th plaintext
        key iv) := by
  have macFits : getAeadMacLen suite.edhocAead ≤ macDefaultSize := by
    cases suite.edhocAead <;> decide
  have sealed : ctxt ≠ .ciphertext2 →
      (ciphertextLen ctxt suite plaintext.length =
        plaintext.length + getAeadMacLen suite.edhocAead) →
      Keeps (Preserves (StoresInside size)) (do
        let aad ← .lift (associatedDataEncode platform th)
        let ciphertext ←
          .lift
            (tryExpect
              (platform.crypto.aeadEncrypt plaintext key iv aad
                (getAeadMacLen suite.edhocAead)))
        storeInto .ciphertext 0 ciphertext
        storeInto .tag 0
          ((ciphertext.drop plaintext.length).take
            (getAeadMacLen suite.edhocAead))
        pure (plaintext.length + getAeadMacLen suite.edhocAead)) := by
    intro isSealed length
    refine Keeps.lift_bind fun aad encoded => ?_
    refine Keeps.lift_bind fun ciphertext encrypted => ?_
    obtain ⟨aadFits, rfl⟩ := cborEncode_eq_ok.mp encoded
    rw [tryExpect_eq_ok] at encrypted
    have fits :=
      room ⟨key, iv, generated, fun _ => ⟨aadFits, ciphertext, encrypted⟩⟩
    have ciphertextLength := platform.crypto.aeadEncrypt_length encrypted
    refine Keeps.bind (storeInto_inside ?_) fun _ => ?_
    · rw [Nat.zero_add, ciphertextLength, ← length]
      exact fits
    · refine Keeps.bind (storeInto_inside ?_) fun _ => Keeps.pure _
      rw [Nat.zero_add, List.length_take]
      exact Nat.le_trans (Nat.min_le_left _ _) macFits
  cases ctxt with
  | ciphertext2 =>
      have fits := room ⟨key, iv, generated, fun isSealed => absurd rfl isSealed⟩
      refine Keeps.bind (storeInto_inside ?_) fun _ => Keeps.pure _
      rw [Nat.zero_add, xorArrays_length]
      exact Nat.le_trans (Nat.min_le_left _ _) fits
  | ciphertext3 | ciphertext4 =>
      exact sealed (by simp) rfl

/-- What `ciphertext_gen` returns in `*ciphertext_len`. -/
theorem ciphertextGenStores_returns :
    Returns
      (ciphertextGenStores platform ctxt suite idCred signatureOrMac ead prk
        th)
      (do
        let plaintext ←
          plaintextEncode platform ctxt idCred signatureOrMac ead
        let keyLen := keyLength ctxt suite plaintext.length
        checkBufferSize ciphertext2DefaultSize keyLen
        let ivLen := getAeadIvLen suite.edhocAead
        checkBufferSize aeadIvDefaultSize ivLen
        let (key, iv) ←
          keyGen platform ctxt suite.edhocHash prk th keyLen ivLen
        let tagLen := getAeadMacLen suite.edhocAead
        checkBufferSize macDefaultSize tagLen
        if ctxt ≠ .ciphertext2 then do
          let aad ← associatedDataEncode platform th
          let _ ←
            tryExpect
              (platform.crypto.aeadEncrypt plaintext key iv aad tagLen)
          .ok (ciphertextLen ctxt suite plaintext.length)
        else
          .ok (ciphertextLen ctxt suite plaintext.length)) := by
  refine Returns.bind plaintextStores_returns fun plaintext => ?_
  refine Returns.bind (Returns.lift _) fun _ => ?_
  refine Returns.bind (Returns.lift _) fun _ => ?_
  refine Returns.bind keyStores_returns fun keys => ?_
  refine Returns.bind (Returns.lift _) fun _ => ?_
  cases ctxt with
  | ciphertext2 =>
      exact Returns.bind_of_ok storeInto_returns (Returns.pure _)
  | ciphertext3 | ciphertext4 =>
      refine Returns.bind (Returns.lift _) fun aad => ?_
      refine Returns.bind (Returns.lift _) fun ciphertext => ?_
      exact
        Returns.bind_of_ok storeInto_returns
          (Returns.bind_of_ok storeInto_returns (Returns.pure _))

/-- A run succeeds exactly where a plaintext and its ciphertext are made. -/
theorem ciphertextGenStores_eq_ok {length : Nat} (log : GenLog) :
    (exec
        (ciphertextGenStores platform ctxt suite idCred signatureOrMac ead prk
          th) log).1 = .ok length ↔
      ∃ plaintext,
        MakesPlaintext platform ctxt idCred signatureOrMac ead plaintext ∧
          MakesCiphertext platform ctxt suite prk th plaintext ∧
            length = ciphertextLen ctxt suite plaintext.length := by
  have ivFits : getAeadIvLen suite.edhocAead ≤ aeadIvDefaultSize := by
    cases suite.edhocAead <;> decide
  have macFits : getAeadMacLen suite.edhocAead ≤ macDefaultSize := by
    cases suite.edhocAead <;> decide
  have keyFits : ∀ plaintext,
      MakesPlaintext platform ctxt idCred signatureOrMac ead plaintext →
        keyLength ctxt suite plaintext.length ≤ ciphertext2DefaultSize := by
    intro plaintext made
    obtain ⟨_, _, fits, _⟩ := made
    cases ctxt with
    | ciphertext2 =>
        exact fits
    | ciphertext3 | ciphertext4 =>
        have keyBound : ∀ alg, getAeadKeyLen alg ≤ ciphertext2DefaultSize := by
          intro alg
          cases alg <;> decide
        exact keyBound suite.edhocAead
  rw [ciphertextGenStores_returns]
  simp only [outcome_bind_eq_ok, checkBufferSize_eq_ok, ivFits, macFits,
    exists_const, true_and, Prod.exists, plaintextEncode_iff_makes]
  apply exists_congr
  intro plaintext
  apply and_congr_right
  intro made
  unfold MakesCiphertext associatedDataEncode
  simp only [keyFits plaintext made, true_and]
  by_cases isSealed : ctxt = .ciphertext2
  · simp only [isSealed, ne_eq, not_true_eq_false, if_false,
      Except.ok.injEq, false_implies, and_true]
    constructor
    · rintro ⟨key, iv, generated, rfl⟩
      exact ⟨⟨key, iv, generated⟩, rfl⟩
    · rintro ⟨⟨key, iv, generated⟩, rfl⟩
      exact ⟨key, iv, generated, rfl⟩
  · simp only [ne_eq, isSealed, not_false_eq_true, if_true,
      outcome_bind_eq_ok, cborEncode_eq_ok, tryExpect_eq_ok,
      Except.ok.injEq, true_implies]
    constructor
    · rintro ⟨key, iv, generated, _, ⟨aadFits, rfl⟩, ciphertext, encrypted,
        rfl⟩
      exact ⟨⟨key, iv, generated, aadFits, ciphertext, encrypted⟩, rfl⟩
    · rintro ⟨⟨key, iv, generated, aadFits, ciphertext, encrypted⟩, rfl⟩
      exact
        ⟨key, iv, generated, _, ⟨aadFits, rfl⟩, ciphertext, encrypted, rfl⟩

theorem ciphertextGenStores_defined :
    Defined
      (ciphertextGenStores platform ctxt suite idCred signatureOrMac ead prk
        th) := by
  intro log
  rw [ciphertextGenStores_returns]
  refine outcome_bind_defined plaintextEncode_defined fun plaintext _ => ?_
  refine outcome_bind_defined checkBufferSize_defined fun _ _ => ?_
  refine outcome_bind_defined checkBufferSize_defined fun _ _ => ?_
  refine outcome_bind_defined keyGen_defined fun keys _ => ?_
  refine outcome_bind_defined checkBufferSize_defined fun _ _ => ?_
  split
  · refine outcome_bind_defined tryExpect_defined fun _ _ => ?_
    exact outcome_bind_defined tryExpect_defined fun _ _ => by simp
  · simp

/-- With room for the ciphertext that is made, every store is inside. -/
theorem ciphertextGenStores_inside
    (fits :
      CiphertextFits platform ctxt suite idCred signatureOrMac ead prk th
        size) :
    Keeps (Preserves (StoresInside size))
      (ciphertextGenStores platform ctxt suite idCred signatureOrMac ead prk
        th) := by
  refine
    Keeps.bind_of_ok plaintextStores_inside
      fun plaintext log between encoded => ?_
  have made :
      MakesPlaintext platform ctxt idCred signatureOrMac ead plaintext := by
    rw [← plaintextEncode_iff_makes, ← plaintextStores_returns log, encoded]
  refine Keeps.lift_bind fun _ keyFits => ?_
  refine Keeps.bind (Keeps.lift _) fun _ => ?_
  refine
    Keeps.bind_of_ok (keyStores_inside (checkBufferSize_eq_ok.mp keyFits))
      fun keys log between generated => ?_
  refine Keeps.bind (Keeps.lift _) fun _ => ?_
  apply sealStores_inside
  · have keyed :=
      @keyStores_returns platform ctxt prk th
        (keyLength ctxt suite plaintext.length)
        (getAeadIvLen suite.edhocAead) suite.edhocHash log
    rw [generated] at keyed
    exact keyed.symm
  · exact fits plaintext made

/-- What a successful run stores in the output is what `ciphertextGen`
returns. -/
theorem ciphertextGenStores_stored {length : Nat} {log after : GenLog}
    (done :
      exec
          (ciphertextGenStores platform ctxt suite idCred signatureOrMac ead
            prk th) log = (.ok length, after)) :
    ∃ ciphertext, ⟨.ciphertext, 0, ciphertext⟩ ∈ after ∧
      ciphertext.length = length ∧
      (length ≤ plaintextDefaultSize →
        ciphertextGen platform ctxt suite idCred signatureOrMac ead prk th =
          .ok ciphertext) := by
  unfold ciphertextGenStores at done
  simp only [exec_bind_eq_ok, exec_lift, Prod.mk.injEq,
    checkBufferSize_eq_ok] at done
  obtain ⟨plaintext, _, encoded, _, _, ⟨keyFits, rfl⟩, _, _, _, keys, keyed,
    generated, _, _, _, stored⟩ := done
  have isPlaintext :
      plaintextEncode platform ctxt idCred signatureOrMac ead =
        .ok plaintext := by
    rw [← plaintextStores_returns log, encoded]
  have isKeys :
      keyGen platform ctxt suite.edhocHash prk th
          (keyLength ctxt suite plaintext.length)
          (getAeadIvLen suite.edhocAead) = .ok keys := by
    rw [← keyStores_returns _, generated]
  have returned : ∀ ciphertext,
      ciphertextEncrypt platform ctxt suite prk th plaintext =
          .ok ciphertext →
        ciphertextGen platform ctxt suite idCred signatureOrMac ead prk th =
          .ok ciphertext := by
    intro ciphertext encrypted
    unfold ciphertextGen
    rw [isPlaintext, outcome_ok_bind, encrypted]
  have keysLength := keyGen_length isKeys
  cases ctxt with
  | ciphertext2 =>
      simp only [sealStores, exec_bind_eq_ok, exec_storeInto, exec_pure,
        Prod.mk.injEq, Except.ok.injEq] at stored
      obtain ⟨_, _, ⟨_, rfl⟩, rfl, rfl⟩ := stored
      refine ⟨xorArrays plaintext keys.1, ?_, ?_, fun _ => ?_⟩
      · exact List.mem_append_right _ (List.mem_singleton.mpr rfl)
      · rw [xorArrays_length, keysLength]
        exact Nat.min_self _
      · exact
          returned _
            (ciphertextEncrypt_eq_ok.mpr
              ⟨keyFits, keys.1, keys.2, isKeys, rfl⟩)
  | ciphertext3 | ciphertext4 =>
      simp only [sealStores, associatedDataEncode, exec_bind_eq_ok, exec_lift,
        exec_storeInto, exec_pure, Prod.mk.injEq, Except.ok.injEq,
        cborEncode_eq_ok, tryExpect_eq_ok] at stored
      obtain ⟨_, _, ⟨⟨aadFits, rfl⟩, rfl⟩, ciphertext, _, ⟨encrypted, rfl⟩,
        _, _, ⟨_, rfl⟩, _, _, ⟨_, rfl⟩, rfl, rfl⟩ := stored
      have ciphertextLength := platform.crypto.aeadEncrypt_length encrypted
      refine ⟨ciphertext, ?_, ciphertextLength, fun fits => ?_⟩
      · exact
          List.mem_append_left _
            (List.mem_append_right _ (List.mem_singleton.mpr rfl))
      · refine
          returned _
            (ciphertextEncrypt_eq_ok.mpr
              ⟨keyFits, keys.1, keys.2, isKeys, aadFits, encrypted, ?_⟩)
        rw [ciphertextLength]
        exact fits

/-- `ciphertext_gen` stays in its buffers exactly when a ciphertext that it
makes has room in the output buffer. -/
theorem ciphertextGen_staysInBuffers_iff (platform : EdhocPlatform)
    (ctxt : Ciphertext) (suite : Suite)
    (idCred signatureOrMac ead prk th : Bytes) (ciphertextSize : Nat) :
    StaysInBuffers ciphertextSize
        (exec
          (ciphertextGenStores platform ctxt suite idCred signatureOrMac ead
            prk th) []) ↔
      CiphertextFits platform ctxt suite idCred signatureOrMac ead prk th
        ciphertextSize := by
  constructor
  · intro stays plaintext made sealed
    have succeeded :=
      (@ciphertextGenStores_eq_ok platform ctxt suite idCred signatureOrMac
        ead prk th _ []).mpr ⟨plaintext, made, sealed, rfl⟩
    obtain ⟨_, ⟨code, failed⟩ | ⟨length, returned, fits⟩⟩ := stays
    · rw [succeeded] at failed
      cases failed
    · rw [succeeded] at returned
      obtain rfl := Except.ok.inj returned
      exact fits
  · intro fits
    constructor
    · apply ciphertextGenStores_inside fits
      intro entry member
      cases member
    · have defined :=
        @ciphertextGenStores_defined platform ctxt suite idCred
          signatureOrMac ead prk th []
      cases outcome :
          (exec
            (ciphertextGenStores platform ctxt suite idCred signatureOrMac
              ead prk th) []).1 with
      | error fault =>
          cases fault with
          | err code =>
              exact Or.inl ⟨code, rfl⟩
          | undefinedBehaviour =>
              exact absurd outcome defined
      | ok length =>
          obtain ⟨plaintext, made, sealed, rfl⟩ :=
            (ciphertextGenStores_eq_ok []).mp outcome
          exact Or.inr ⟨_, rfl, fits plaintext made sealed⟩

end Sealing

/-- A buffer of ten bytes for the third message of the vector takes the
plaintext, but not the tag. -/
theorem tag_behindCiphertext :
    ¬ ∀ (platform : EdhocPlatform) (ctxt : Ciphertext) (suite : Suite)
        (idCred signatureOrMac ead prk th : Bytes) (ciphertextSize : Nat),
      StaysInBuffers ciphertextSize
        (exec
          (ciphertextGenStores platform ctxt suite idCred signatureOrMac ead
            prk th) []) := by
  intro claimed
  have returned :
      (exec
          (ciphertextGenStores v1Platform .ciphertext3 v1Opened2.suite
            v1IdCredI v1Mac3 [] v1Prk3e2m v1Th3) []).1 = .ok 18 := by
    decide +kernel
  obtain ⟨_, ⟨code, failed⟩ | ⟨length, done, fits⟩⟩ :=
    claimed v1Platform .ciphertext3 v1Opened2.suite v1IdCredI v1Mac3 []
      v1Prk3e2m v1Th3 10
  · rw [returned] at failed
    cases failed
  · rw [returned] at done
    obtain rfl := Except.ok.inj done
    exact absurd fits (by decide)

end UoscoreUedhoc.Edhoc

import UoscoreUedhoc.Edhoc.Responder
import UoscoreUedhoc.Edhoc.TranscriptBinding

/-!
# Verification of static DH MACs

`signature_or_mac` compares as many bytes of its buffer as the peer sent.  So a
received string of the length of the MAC is checked exactly, a shorter one is
only compared with the front of the MAC, and a longer one with what the stack
holds behind it.
-/

namespace UoscoreUedhoc.Edhoc

open UoscoreUedhoc

/-! ## One verification -/

/-- The inputs of `signature_or_mac` besides the operation and the received
string. -/
structure MacInputs where
  suite : Suite
  sk : Bytes
  pk : Bytes
  prk : Bytes
  th : Bytes
  idCred : Bytes
  cred : Bytes
  ead : Bytes
  macLabel : Bytes
  deriving DecidableEq, Repr

namespace MacInputs

variable (platform : EdhocPlatform) (inputs : MacInputs)

/-- `signature_or_mac(GENERATE, static_dh = true)`. -/
def generate : Outcome Bytes :=
  signatureOrMacGenerate platform true inputs.suite inputs.sk inputs.pk
    inputs.prk inputs.th inputs.idCred inputs.cred inputs.ead inputs.macLabel

/-- `signature_or_mac(VERIFY, static_dh = true)`. -/
def verify (stack : Stack) (received : Bytes) : Outcome Unit :=
  signatureOrMacVerify platform stack true inputs.suite inputs.pk inputs.prk
    inputs.th inputs.idCred inputs.cred inputs.ead inputs.macLabel received

/-- The length of the static DH MACs of the suite. -/
def macLen : Nat :=
  inputs.suite.edhocMacLenStaticDh.toNat

/-- The context and the info fit into their buffers, and HKDF has an output. -/
def HasMac : Prop :=
  inputs.idCred.length + inputs.cred.length + inputs.ead.length ≤
      contextMacDefaultSize ∧
    (hkdfInfo platform.cbor inputs.th inputs.macLabel
      (inputs.idCred ++ inputs.cred ++ inputs.ead) inputs.macLen).length ≤
        infoDefaultSize ∧
    ∃ okm, platform.crypto.hkdfExpand inputs.suite.edhocHash inputs.prk
      (hkdfInfo platform.cbor inputs.th inputs.macLabel
        (inputs.idCred ++ inputs.cred ++ inputs.ead) inputs.macLen)
      inputs.macLen = some okm

/-- The verification returns `ok` for the MAC and an error for any other
string. -/
def VerifiesExactly (stack : Stack) (received : Bytes) : Prop :=
  (inputs.generate platform = .ok received →
      inputs.verify platform stack received = .ok ()) ∧
    (inputs.generate platform ≠ .ok received →
      ∃ code, inputs.verify platform stack received = .error (.err code))

end MacInputs

section Verification

variable {platform : EdhocPlatform} {inputs : MacInputs}

theorem generate_eq_mac :
    inputs.generate platform =
      mac platform inputs.prk inputs.th inputs.idCred inputs.cred inputs.ead
        inputs.macLabel true inputs.suite := by
  unfold MacInputs.generate signatureOrMacGenerate
  cases mac platform inputs.prk inputs.th inputs.idCred inputs.cred inputs.ead
    inputs.macLabel true inputs.suite with
  | error fault =>
      rfl
  | ok tag =>
      rfl

theorem generate_ok_iff_hasMac :
    (∃ tag, inputs.generate platform = .ok tag) ↔
      inputs.HasMac platform := by
  simp only [generate_eq_mac, mac_eq_ok, okmCalc_eq_ok, MacInputs.HasMac]
  constructor
  · intro generated
    obtain ⟨tag, contextFits, infoFits, expanded⟩ := generated
    exact ⟨contextFits, infoFits, tag, expanded⟩
  · intro computable
    obtain ⟨contextFits, infoFits, tag, expanded⟩ := computable
    exact ⟨tag, contextFits, infoFits, expanded⟩

theorem macLen_lt_shaDefaultSize : inputs.macLen < shaDefaultSize :=
  macLen_lt_hashLen inputs.suite.edhocMacLenStaticDh .sha256

theorem hashLen_le_shaDefaultSize (alg : HashAlg) :
    getHashLen alg ≤ shaDefaultSize := by
  cases alg
  exact Nat.le_refl _

theorem generate_length {tag : Bytes}
    (generated : inputs.generate platform = .ok tag) :
    tag.length = inputs.macLen := by
  rw [generate_eq_mac] at generated
  exact mac_length generated

theorem okmCalc_eq_error {hashAlg : HashAlg} {prk th label context : Bytes}
    {okmLen : Nat} {fault : Fault}
    (failed : okmCalc platform hashAlg prk th label context okmLen =
      .error fault) :
    fault = .err .unexpectedResultFromExtLib := by
  unfold okmCalc createHkdfInfo cborEncode at failed
  rcases outcome_bind_eq_error.mp failed with refused | ⟨_, _, refused⟩
  · exact tryExpect_eq_error refused
  · exact tryExpect_eq_error refused

/-- A call of `mac` has no undefined behaviour. -/
theorem mac_eq_error {prk th idCred cred ead macLabel : Bytes}
    {staticDh : Bool} {suite : Suite} {fault : Fault}
    (failed : mac platform prk th idCred cred ead macLabel staticDh suite =
      .error fault) :
    ∃ code, fault = .err code := by
  unfold mac at failed
  rcases outcome_bind_eq_error.mp failed with refused | ⟨_, _, failed⟩
  · exact ⟨_, checkBufferSize_eq_error refused⟩
  · rcases outcome_bind_eq_error.mp failed with refused | ⟨_, _, failed⟩
    · exact ⟨_, memcpyS_whole_eq_error refused⟩
    · rcases outcome_bind_eq_error.mp failed with refused | ⟨_, _, failed⟩
      · exact ⟨_, memcpyS_whole_eq_error refused⟩
      · rcases outcome_bind_eq_error.mp failed with refused | ⟨_, _, failed⟩
        · exact ⟨_, memcpyS_whole_eq_error refused⟩
        · exact ⟨_, okmCalc_eq_error failed⟩

/-- What the verification does once the MAC is computed: it compares the front
of its buffer. -/
theorem verify_of_generate {tag : Bytes}
    (generated : inputs.generate platform = .ok tag) (stack : Stack)
    (received : Bytes) :
    inputs.verify platform stack received =
      if shaDefaultSize < received.length then undefinedBehaviour
      else if (tag ++ stack.toList.drop tag.length).take received.length =
          received then .ok ()
      else fail .macAuthenticationFailed := by
  have tagLength := generate_length generated
  have tagShort := @macLen_lt_shaDefaultSize inputs
  have bufLength :
      (tag ++ stack.toList.drop tag.length).length = shaDefaultSize := by
    simp only [List.length_append, List.length_drop, Vector.length_toList]
    omega
  rw [generate_eq_mac] at generated
  have hashFits := hashLen_le_shaDefaultSize inputs.suite.edhocHash
  unfold MacInputs.verify signatureOrMacVerify
  rw [checkBufferSize_of_le hashFits, outcome_ok_bind, generated,
    outcome_ok_bind]
  simp only [if_true]
  by_cases tooLong : shaDefaultSize < received.length
  · have refused : memcmpEqual (tag ++ stack.toList.drop tag.length) received
        received.length = undefinedBehaviour := by
      unfold memcmpEqual
      rw [if_pos (Or.inl (by omega))]
    rw [refused, if_pos tooLong]
    rfl
  · rw [memcmpEqual_of_le (by omega) (Nat.le_refl _), outcome_ok_bind,
      if_neg tooLong, List.take_length]
    simp only [decide_eq_true_eq]

/-- Without a MAC both operations fail. -/
theorem verifiesExactly_of_error {stack : Stack} {received : Bytes}
    {fault : Fault} (generated : inputs.generate platform = .error fault) :
    inputs.VerifiesExactly platform stack received := by
  have failed := generated
  rw [generate_eq_mac] at failed
  obtain ⟨code, rfl⟩ := mac_eq_error failed
  constructor
  · intro isMac
    rw [generated] at isMac
    cases isMac
  · intro _
    refine ⟨code, ?_⟩
    unfold MacInputs.verify signatureOrMacVerify
    rw [checkBufferSize_of_le
        (hashLen_le_shaDefaultSize inputs.suite.edhocHash),
      outcome_ok_bind, failed, outcome_error_bind]

/-- A received string of the length of the MAC is verified exactly. -/
theorem verifiesExactly_of_length {stack : Stack} {received : Bytes}
    (sameLength : received.length = inputs.macLen) :
    inputs.VerifiesExactly platform stack received := by
  have short := @macLen_lt_shaDefaultSize inputs
  cases generated : inputs.generate platform with
  | error fault =>
      exact verifiesExactly_of_error generated
  | ok tag =>
      have tagLength := generate_length generated
      have compared : (tag ++ stack.toList.drop tag.length).take
          received.length = tag := by
        rw [sameLength, ← tagLength]
        simp
      have verified := verify_of_generate generated stack received
      rw [if_neg (by omega), compared] at verified
      constructor
      · intro isMac
        rw [generated] at isMac
        simp only [Except.ok.injEq] at isMac
        rw [verified, if_pos isMac]
      · intro notMac
        have other : tag ≠ received := by
          intro same
          apply notMac
          rw [generated, same]
        exact ⟨_, by rw [verified, if_neg other]; rfl⟩

/-- All strings of a length are verified exactly when it is the length of the
MAC, or when no MAC can be computed. -/
theorem verifiesExactly_iff_length {length : Nat} :
    (∀ received : Bytes, received.length = length → ∀ stack : Stack,
        inputs.VerifiesExactly platform stack received) ↔
      length = inputs.macLen ∨ ¬ inputs.HasMac platform := by
  constructor
  · intro exact
    by_contra otherwise
    push Not at otherwise
    obtain ⟨otherLength, computable⟩ := otherwise
    obtain ⟨tag, generated⟩ := generate_ok_iff_hasMac.mpr computable
    have tagLength := generate_length generated
    have short := @macLen_lt_shaDefaultSize inputs
    -- The MAC with zero bytes behind it, cut to the length.
    let stack : Stack := Vector.replicate shaDefaultSize 0
    let received : Bytes :=
      (tag ++ stack.toList.drop tag.length ++
        List.replicate length 0).take length
    have receivedLength : received.length = length := by
      simp only [received, List.length_take, List.length_append,
        List.length_replicate]
      omega
    have notMac : inputs.generate platform ≠ .ok received := by
      rw [generated]
      intro same
      simp only [Except.ok.injEq] at same
      apply otherLength
      rw [← tagLength, same, receivedLength]
    obtain ⟨code, rejected⟩ :=
      (exact received receivedLength stack).2 notMac
    rw [verify_of_generate generated stack received, receivedLength]
      at rejected
    by_cases tooLong : shaDefaultSize < length
    · rw [if_pos tooLong] at rejected
      cases rejected
    · have bufLength :
          (tag ++ stack.toList.drop tag.length).length = shaDefaultSize := by
        simp only [List.length_append, List.length_drop,
          Vector.length_toList]
        omega
      have compared : (tag ++ stack.toList.drop tag.length).take length =
          received :=
        (List.take_append_of_le_length (by omega)).symm
      rw [if_neg tooLong, if_pos compared] at rejected
      cases rejected
  · intro condition received sameLength stack
    rcases condition with isMacLen | notComputable
    · exact verifiesExactly_of_length (sameLength.trans isMacLen)
    · cases generated : inputs.generate platform with
      | error fault =>
          exact verifiesExactly_of_error generated
      | ok tag =>
          exact absurd (generate_ok_iff_hasMac.mp ⟨tag, generated⟩)
            notComputable

/-- Of the strings that are accepted, those of the length of the MAC are the
MAC. -/
theorem generate_iff_of_verify {stack : Stack} {received : Bytes}
    (accepted : inputs.verify platform stack received = .ok ()) :
    inputs.generate platform = .ok received ↔
      received.length = inputs.macLen := by
  constructor
  · intro isMac
    exact generate_length isMac
  · intro sameLength
    by_contra notMac
    obtain ⟨code, rejected⟩ :=
      (@verifiesExactly_of_length _ _ stack _ sameLength).2 notMac
    rw [accepted] at rejected
    cases rejected

end Verification

/-! ## The two roles -/

/-- The inputs of the check of `MAC_2`. -/
def OpenedMsg2.macInputs (opened : OpenedMsg2) : MacInputs where
  suite := opened.suite
  sk := []
  pk := opened.retrieved.pk
  prk := opened.prk3e2m
  th := opened.th2
  idCred := opened.idCredR
  cred := opened.retrieved.cred
  ead := opened.ead2
  macLabel := mac2Label

/-- The inputs of the check of `MAC_3`. -/
def OpenedMsg3.macInputs (opened : OpenedMsg3) (rc : Msg2Output) :
    MacInputs where
  suite := rc.suite
  sk := []
  pk := opened.retrieved.pk
  prk := opened.prk4x3m
  th := rc.th3
  idCred := opened.idCredI
  cred := opened.retrieved.cred
  ead := opened.ead3
  macLabel := mac3Label

section Roles

variable {platform : EdhocPlatform} {stack : Stack}

theorem staticDhR_of_method {method : Int32}
    (staticDh : method = 1 ∨ method = 3) (before : AuthenticationType) :
    (authenticationTypeGet method before).staticDhR = some true := by
  rcases staticDh with rfl | rfl
  · rfl
  · rfl

theorem staticDhI_of_method {method : Int32}
    (staticDh : method = 2 ∨ method = 3) (before : AuthenticationType) :
    (authenticationTypeGet method before).staticDhI = some true := by
  rcases staticDh with rfl | rfl
  · rfl
  · rfl

theorem msg2Open_staticDhR {c : InitiatorContext} {buffers : InitiatorBuffers}
    {msg1 msg2 : Bytes} {opened : OpenedMsg2}
    (open' : msg2Open platform c buffers msg1 msg2 = .ok opened) :
    (authenticationTypeGet c.method ⟨some false, some false⟩).staticDhR =
      some opened.staticDhR := by
  unfold msg2Open at open'
  simp only [outcome_bind_eq_ok, orUndefined_eq_ok] at open'
  obtain ⟨_, _, _, _, staticDhR, isStaticDhR, _, _, _, _, _, _, _, _, _, _,
    _, _, _, _, _, _, result⟩ := open'
  simp only [Except.ok.injEq] at result
  rw [isStaticDhR, ← result]

/-- `msg3_gen` has verified what it opened. -/
theorem msg3Gen_verified {c : InitiatorContext} {buffers : InitiatorBuffers}
    {msg1 msg2 : Bytes} {opened : OpenedMsg2} {output : Msg3Output}
    (staticDh : c.method = 1 ∨ c.method = 3)
    (open' : msg2Open platform c buffers msg1 msg2 = .ok opened)
    (generated :
      msg3Gen platform stack c buffers msg1 msg2 = .ok output) :
    opened.macInputs.verify platform stack opened.signOrMac = .ok () := by
  have isStaticDh := msg2Open_staticDhR open'
  rw [staticDhR_of_method staticDh, Option.some.injEq] at isStaticDh
  unfold msg3Gen at generated
  rw [open', outcome_ok_bind] at generated
  obtain ⟨_, verified, _⟩ := outcome_bind_eq_ok.mp generated
  rw [← isStaticDh] at verified
  exact verified

/-- `msg3_process` has verified what it opened. -/
theorem msg3Process_verified {c : ResponderContext}
    {buffers : ResponderBuffers} {rc : Msg2Output} {msg3 : Bytes}
    {opened : OpenedMsg3} {output : ProcessedMsg3} {method : Int32}
    {before : AuthenticationType} (staticDh : method = 2 ∨ method = 3)
    (isMethod :
      (authenticationTypeGet method before).staticDhI = some rc.staticDhI)
    (open' : msg3Open platform c buffers rc msg3 = .ok opened)
    (processed :
      msg3Process platform stack c buffers rc msg3 = .ok output) :
    (opened.macInputs rc).verify platform stack opened.signOrMac = .ok () := by
  rw [staticDhI_of_method staticDh, Option.some.injEq] at isMethod
  unfold msg3Process at processed
  rw [open', outcome_ok_bind] at processed
  obtain ⟨_, verified, _⟩ := outcome_bind_eq_ok.mp processed
  rw [← isMethod] at verified
  exact verified

end Roles

/-- Static DH authentication is exact for received strings of the length of the
MAC of the suite and for no others, unless there is no MAC to compare with.  In
both roles a peer whose message was accepted has supplied the complete MAC
exactly when what it sent has this length. -/
theorem staticDh_exact_iff_length (platform : EdhocPlatform) :
    (∀ (inputs : MacInputs) (length : Nat),
      (∀ received : Bytes, received.length = length → ∀ stack : Stack,
          inputs.VerifiesExactly platform stack received) ↔
        length = inputs.macLen ∨ ¬ inputs.HasMac platform) ∧
    (∀ (stack : Stack) (c : InitiatorContext) (buffers : InitiatorBuffers)
        (msg1 msg2 : Bytes) (opened : OpenedMsg2) (output : Msg3Output),
      c.method = 1 ∨ c.method = 3 →
      msg2Open platform c buffers msg1 msg2 = .ok opened →
      msg3Gen platform stack c buffers msg1 msg2 = .ok output →
        (opened.macInputs.generate platform = .ok opened.signOrMac ↔
          opened.signOrMac.length = opened.macInputs.macLen)) ∧
    (∀ (stack : Stack) (c : ResponderContext) (buffers : ResponderBuffers)
        (rc : Msg2Output) (msg3 : Bytes) (opened : OpenedMsg3)
        (output : ProcessedMsg3) (method : Int32)
        (before : AuthenticationType),
      method = 2 ∨ method = 3 →
      (authenticationTypeGet method before).staticDhI = some rc.staticDhI →
      msg3Open platform c buffers rc msg3 = .ok opened →
      msg3Process platform stack c buffers rc msg3 = .ok output →
        ((opened.macInputs rc).generate platform = .ok opened.signOrMac ↔
          opened.signOrMac.length = (opened.macInputs rc).macLen)) := by
  refine ⟨?_, ?_, ?_⟩
  · intro inputs length
    exact verifiesExactly_iff_length
  · intro stack c buffers msg1 msg2 opened output staticDh open' generated
    exact generate_iff_of_verify
      (msg3Gen_verified staticDh open' generated)
  · intro stack c buffers rc msg3 opened output method before staticDh
      isMethod open' processed
    exact generate_iff_of_verify
      (msg3Process_verified staticDh isMethod open' processed)

/-! ## The first test vector of the repository -/

def v1X : Bytes :=
  [0xB3, 0x11, 0x19, 0x98, 0xCB, 0x3F, 0x66, 0x86, 0x63, 0xED, 0x42, 0x51,
    0xC7, 0x8B, 0xE6, 0xE9, 0x5A, 0x4D, 0xA1, 0x27, 0xE4, 0xF6, 0xFE, 0xE2,
    0x75, 0xE8, 0x55, 0xD8, 0xD9, 0xDF, 0xD8, 0xED]

def v1GX : Bytes :=
  [0x3A, 0xA9, 0xEB, 0x32, 1, 0xB3, 0x36, 0x7B, 0x8C, 0x8B, 0xE3, 0x8D, 0x91,
    0xE5, 0x7A, 0x2B, 0x43, 0x3E, 0x67, 0x88, 0x8C, 0x86, 0xD2, 0xAC, 0, 0x6A,
    0x52, 8, 0x42, 0xED, 0x50, 0x37]

def v1Y : Bytes :=
  [0xBD, 0x86, 0xEA, 0xF4, 6, 0x5A, 0x83, 0x6C, 0xD2, 0x9D, 0x0F, 6, 0x91,
    0xCA, 0x2A, 0x8E, 0xC1, 0x3F, 0x51, 0xD1, 0xC4, 0x5E, 0x1B, 0x43, 0x72,
    0xC0, 0xCB, 0xE4, 0x93, 0xCE, 0xF6, 0xBD]

def v1GXy : Bytes :=
  [0x6D, 0x26, 0x60, 0xEC, 0x2B, 0x30, 0x15, 0xD9, 0x3F, 0xE6, 0x5D, 0xAE,
    0xA5, 0x12, 0x74, 0xBD, 0x5B, 0x1E, 0xBB, 0xAD, 0x9B, 0x62, 0x4E, 0x67,
    0x0E, 0x79, 0xA6, 0x55, 0xE3, 0x0E, 0xC3, 0x4D]

def v1Prk2e : Bytes :=
  [0xD1, 0xD0, 0x11, 0xA5, 0x9A, 0x6D, 0x10, 0x57, 0x5E, 0xB2, 0x20, 0xC7,
    0x65, 0x2E, 0x6F, 0x98, 0xC4, 0x17, 0xA5, 0x65, 0xE4, 0xE4, 0x5C, 0xF5,
    0xB5, 1, 6, 0x95, 4, 0x3B, 0x0E, 0xB7]

def v1R : Bytes :=
  [0x52, 0x8B, 0x49, 0xC6, 0x70, 0xF8, 0xFC, 0x16, 0xA2, 0xAD, 0x95, 0xC1,
    0x88, 0x5B, 0x2E, 0x24, 0xFB, 0x15, 0x76, 0x22, 0x72, 0x79, 0x2A, 0xA1,
    0xCF, 5, 0x1D, 0xF5, 0xD9, 0x3D, 0x36, 0x94]

def v1GR : Bytes :=
  [0xE6, 0x6F, 0x35, 0x59, 0x90, 0x22, 0x3C, 0x3F, 0x6C, 0xAF, 0xF8, 0x62,
    0xE4, 7, 0xED, 0xD1, 0x17, 0x4D, 7, 1, 0xA0, 0x9E, 0xCD, 0x6A, 0x15, 0xCE,
    0xE2, 0xC6, 0xCE, 0x21, 0xAA, 0x50]

def v1GRx : Bytes :=
  [0xB5, 0x8B, 0x40, 0x34, 0x26, 0xC0, 0x3D, 0xB0, 0x7B, 0xAA, 0x93, 0x44,
    0xD5, 0x51, 0xE6, 0x7B, 0x21, 0x78, 0xBF, 5, 0xEC, 0x6F, 0x52, 0xC3, 0x6A,
    0x2F, 0xA5, 0xBE, 0x23, 0x2D, 0xD4, 0x78]

def v1Prk3e2m : Bytes :=
  [0x76, 0x8E, 0x13, 0x75, 0x27, 0x2E, 0x1E, 0x68, 0xB4, 0x2C, 0xA3, 0x24,
    0x84, 0x80, 0xD5, 0xBB, 0xA8, 0x8B, 0xCB, 0x55, 0xF6, 0x60, 0xCE, 0x7F,
    0x94, 0x1E, 0x67, 9, 0x10, 0x31, 0x17, 0xA1]

def v1IdCredR : Bytes :=
  [0xA1, 4, 5]

def v1CredR : Bytes :=
  [0xA2, 2, 0x6B, 0x65, 0x78, 0x61, 0x6D, 0x70, 0x6C, 0x65, 0x2E, 0x65, 0x64,
    0x75, 8, 0xA1, 1, 0xA4, 1, 1, 2, 5, 0x20, 4, 0x21, 0x58, 0x20, 0xE6, 0x6F,
    0x35, 0x59, 0x90, 0x22, 0x3C, 0x3F, 0x6C, 0xAF, 0xF8, 0x62, 0xE4, 7, 0xED,
    0xD1, 0x17, 0x4D, 7, 1, 0xA0, 0x9E, 0xCD, 0x6A, 0x15, 0xCE, 0xE2, 0xC6,
    0xCE, 0x21, 0xAA, 0x50]

def v1Mac2 : Bytes :=
  [0x8E, 0x27, 0xCB, 0xD4, 0x94, 0xF7, 0x52, 0x83]

def v1Keystream2 : Bytes :=
  [0x0A, 0xB8, 0xC2, 0x0E, 0x84, 0x9E, 0x52, 0xF5, 0x9D, 0xFB]

def v1I : Bytes :=
  [0xCF, 0xC4, 0xB6, 0xED, 0x22, 0xE7, 0, 0xA3, 0x0D, 0x5C, 0x5B, 0xCD, 0x61,
    0xF1, 0xF0, 0x20, 0x49, 0xDE, 0x23, 0x54, 0x62, 0x33, 0x48, 0x93, 0xD6,
    0xFF, 0x9F, 0x0C, 0xFE, 0xA3, 0xFE, 4]

def v1GI : Bytes :=
  [0x4A, 0x49, 0xD8, 0x8C, 0xD5, 0xD8, 0x41, 0xFA, 0xB7, 0xEF, 0x98, 0x3E,
    0x91, 0x1D, 0x25, 0x78, 0x86, 0x1F, 0x95, 0x88, 0x4F, 0x9F, 0x5D, 0xC4,
    0x2A, 0x2E, 0xED, 0x33, 0xDE, 0x79, 0xED, 0x77]

def v1GIy : Bytes :=
  [0x0A, 0xF4, 0x2A, 0xD5, 0x12, 0xDC, 0x3E, 0x97, 0x2B, 0x3A, 0xC4, 0xD4,
    0x7B, 0xA3, 0x3F, 0xFC, 0x21, 0xF1, 0xAE, 0x6F, 7, 0xF2, 0xF8, 0x94, 0x85,
    0x4A, 0x5A, 0x47, 0x44, 0x33, 0x85, 0x48]

def v1Prk4x3m : Bytes :=
  [0xB8, 0xCC, 0xDF, 0x14, 0x20, 0xB5, 0xB0, 0xC8, 0x2A, 0x58, 0x7E, 0x7D,
    0x26, 0xDD, 0x7B, 0x70, 0x48, 0x57, 0x4C, 0x3A, 0x48, 0xDF, 0x9F, 0x6A,
    0x45, 0xF7, 0x21, 0xC0, 0xCF, 0xA4, 0xB2, 0x7C]

def v1IdCredI : Bytes :=
  [0xA1, 4, 0x29]

def v1CredI : Bytes :=
  [0xA2, 2, 0x77, 0x34, 0x32, 0x2D, 0x35, 0x30, 0x2D, 0x33, 0x31, 0x2D, 0x46,
    0x46, 0x2D, 0x45, 0x46, 0x2D, 0x33, 0x37, 0x2D, 0x33, 0x32, 0x2D, 0x33,
    0x39, 8, 0xA1, 1, 0xA4, 1, 1, 2, 0x29, 0x20, 4, 0x21, 0x58, 0x20, 0x4A,
    0x49, 0xD8, 0x8C, 0xD5, 0xD8, 0x41, 0xFA, 0xB7, 0xEF, 0x98, 0x3E, 0x91,
    0x1D, 0x25, 0x78, 0x86, 0x1F, 0x95, 0x88, 0x4F, 0x9F, 0x5D, 0xC4, 0x2A,
    0x2E, 0xED, 0x33, 0xDE, 0x79, 0xED, 0x77]

def v1Mac3 : Bytes :=
  [0xDB, 0x0B, 0x8F, 0x75, 0x27, 9, 0x53, 0xDA]

def v1Plaintext3 : Bytes :=
  [0x29, 0x48, 0xDB, 0x0B, 0x8F, 0x75, 0x27, 9, 0x53, 0xDA]

def v1K3 : Bytes :=
  [0x2A, 0x30, 0xE4, 0xF6, 0xBC, 0x55, 0x8D, 0x0E, 0x7A, 0x8C, 0x63, 0xEE,
    0x7B, 0xB5, 0x45, 0x7F]

def v1Iv3 : Bytes :=
  [0xB3, 0x8F, 0xB6, 0x31, 0xE3, 0x44, 0xA8, 0x10, 0x52, 0x56, 0x32, 0xED,
    0xF8]

def v1K4 : Bytes :=
  [0x55, 0xB5, 0x7D, 0x59, 0xA8, 0x26, 0xF4, 0x56, 0x38, 0x86, 0x9B, 0x75, 7,
    0x0B, 0x11, 0x17]

def v1Iv4 : Bytes :=
  [0x20, 0x7A, 0x4E, 0xFC, 0x25, 0xA6, 0x58, 0x96, 0x45, 0x11, 0xF1, 0x63,
    0x76]

def v1Ciphertext4 : Bytes :=
  [0xE9, 0xE6, 0xC8, 0xB6, 0x37, 0x6D, 0xB0, 0xB1]

def v1Message2 : Bytes :=
  [0x58, 0x2A, 0x25, 0x54, 0x91, 0xB0, 0x5A, 0x39, 0x89, 0xFF, 0x2D, 0x3F,
    0xFE, 0xA6, 0x20, 0x98, 0xAA, 0xB5, 0x7C, 0x16, 0x0F, 0x29, 0x4E, 0xD9,
    0x48, 1, 0x8B, 0x41, 0x90, 0xF7, 0xD1, 0x61, 0x82, 0x4E, 0x0F, 0xF0, 0x4C,
    0x29, 0x4F, 0x4A, 0xC6, 2, 0xCF, 0x78, 0x40]

def v1Message3 : Bytes :=
  [0x52, 0xBE, 1, 0x46, 0xC1, 0x36, 0xAC, 0x2E, 0xFF, 0xD4, 0x53, 0xA7, 0x5E,
    0xFA, 0x90, 0x89, 0x6F, 0x65, 0x3B]

def v1Message4 : Bytes :=
  [0x48, 0xE9, 0xE6, 0xC8, 0xB6, 0x37, 0x6D, 0xB0, 0xB1]

/-- A recorded call of `hkdf_expand` in `okm_calc`. -/
def okmRecord (prk th label context okm : Bytes) :
    (Bytes × Bytes × Nat) × Bytes :=
  ((prk, hkdfInfo canonicalMapCbor th label context okm.length, okm.length),
    okm)

/-- A recorded call of `aead` with a tag of eight bytes. -/
def ciphertextRecord (key iv th plaintext ciphertext : Bytes) : AeadRecord where
  plaintext := plaintext
  key := key
  nonce := iv
  aad := associatedData canonicalMapCbor th
  tagLen := 8
  ciphertext := ciphertext

/-- The calls of the wrapper in the exchange of the vector. -/
def v1Records : EdhocRecords where
  hash := v1HashRecords
  hkdfExtract :=
    [ (([], v1GXy), v1Prk2e),
      ((v1Prk2e, v1GRx), v1Prk3e2m),
      ((v1Prk3e2m, v1GIy), v1Prk4x3m) ]
  hkdfExpand :=
    [ okmRecord v1Prk3e2m v1Th2 mac2Label (v1IdCredR ++ v1CredR) v1Mac2,
      okmRecord v1Prk2e v1Th2 keystream2Label [] v1Keystream2,
      okmRecord v1Prk4x3m v1Th3 mac3Label (v1IdCredI ++ v1CredI) v1Mac3,
      okmRecord v1Prk3e2m v1Th3 k3Label [] v1K3,
      okmRecord v1Prk3e2m v1Th3 iv3Label [] v1Iv3,
      okmRecord v1Prk4x3m v1Th4 edhocK4Label [] v1K4,
      okmRecord v1Prk4x3m v1Th4 edhocIv4Label [] v1Iv4 ]
  sharedSecret :=
    [ ((v1X, v1GY), v1GXy), ((v1Y, v1GX), v1GXy),
      ((v1R, v1GX), v1GRx), ((v1X, v1GR), v1GRx),
      ((v1I, v1GY), v1GIy), ((v1Y, v1GI), v1GIy) ]
  aead :=
    [ ciphertextRecord v1K3 v1Iv3 v1Th3 v1Plaintext3 v1Ciphertext3,
      ciphertextRecord v1K4 v1Iv4 v1Th4 [] v1Ciphertext4 ]
  sign := []

theorem v1Records_lengths : v1Records.LengthsRight where
  aead := by decide +kernel
  hash := by decide +kernel
  hkdfExtract := by decide +kernel
  hkdfExpand := by decide +kernel
  sign := by decide

def v1Platform : EdhocPlatform where
  crypto := EdhocWrapper.ofRecords v1Records v1Records_lengths
  cbor := canonicalMapCbor
  zcbor := canonicalZcbor

def v1Initiator : InitiatorContext where
  msg4 := true
  cI := .int 12
  method := 3
  suitesI := [0]
  ead1 := []
  ead3 := []
  idCredI := v1IdCredI
  credI := v1CredI
  gX := v1GX
  x := v1X
  i := v1I
  skI := []
  pkI := []

def v1InitiatorBuffers : InitiatorBuffers where
  credRArray := [ ⟨v1IdCredR, v1CredR, [], v1GR, [], []⟩ ]
  ead2Len := 256
  ead4Len := 256

def v1Responder : ResponderContext where
  msg4 := true
  cR := .bstr []
  suitesR := [0]
  gY := v1GY
  y := v1Y
  r := v1R
  ead2 := []
  ead4 := []
  idCredR := v1IdCredR
  credR := v1CredR
  skR := []
  pkR := []

def v1ResponderBuffers : ResponderBuffers where
  credIArray := [ ⟨v1IdCredI, v1CredI, [], v1GI, [], []⟩ ]
  ead1Len := 256
  ead3Len := 256

def v1Stack : Stack :=
  Vector.replicate shaDefaultSize 0

/-- The inputs of the check of `MAC_2` in the exchange. -/
def v1Mac2Inputs : MacInputs where
  suite := ⟨.aesCcm16_64_128, .sha256, .mac8, .x25519, .edDsa⟩
  sk := []
  pk := []
  prk := v1Prk3e2m
  th := v1Th2
  idCred := v1IdCredR
  cred := v1CredR
  ead := []
  macLabel := mac2Label

theorem v1Mac2_generated :
    v1Mac2Inputs.generate v1Platform = .ok v1Mac2 := by
  decide +kernel

/-- The empty string is accepted as `MAC_2`, and a plaintext can carry it. -/
theorem emptyMac_verified :
    ¬ (∀ (platform : EdhocPlatform) (inputs : MacInputs) (stack : Stack)
        (received ptxt : Bytes) (adLen : Nat) (split : SplitPlaintext),
      plaintextSplit platform ptxt adLen = .ok split →
      split.signOrMac = received →
        (inputs.verify platform stack received = .ok () ↔
          inputs.generate platform = .ok received)) := by
  intro exact
  have delivered : plaintextSplit v1Platform [5, 0x40] 256 =
      .ok ⟨some v1IdCredR, [], []⟩ := by
    decide +kernel
  have accepted : v1Mac2Inputs.verify v1Platform v1Stack [] = .ok () := by
    decide +kernel
  have isMac := (exact v1Platform v1Mac2Inputs v1Stack [] [5, 0x40] 256 _
    delivered rfl).mp accepted
  rw [v1Mac2_generated] at isMac
  exact absurd isMac (by decide)

def v1Opened2 : OpenedMsg2 where
  suite := ⟨.aesCcm16_64_128, .sha256, .mac8, .x25519, .edDsa⟩
  staticDhI := true
  staticDhR := true
  gY := v1GY
  ciphertext2 := v1Ciphertext2
  th2 := v1Th2
  prk3e2m := v1Prk3e2m
  idCredR := v1IdCredR
  retrieved := ⟨v1CredR, [], v1GR⟩
  ead2 := []
  signOrMac := v1Mac2

theorem v1Message2_opened :
    msg2Open v1Platform v1Initiator v1InitiatorBuffers v1Message1
      v1Message2 = .ok v1Opened2 := by
  decide +kernel

def v1Msg3Output : Msg3Output where
  msg3 := v1Message3
  suite := ⟨.aesCcm16_64_128, .sha256, .mac8, .x25519, .edDsa⟩
  ead2 := []
  prk4x3m := v1Prk4x3m
  th4 := v1Th4

theorem v1Message3_generated :
    msg3Gen v1Platform v1Stack v1Initiator v1InitiatorBuffers v1Message1
      v1Message2 = .ok v1Msg3Output := by
  decide +kernel

/-- The exchange of the vector: strings of eight bytes are verified exactly,
and the initiator has received the complete `MAC_2`. -/
theorem staticDh_exact_v1 :
    (∀ received : Bytes, received.length = 8 → ∀ stack : Stack,
        v1Mac2Inputs.VerifiesExactly v1Platform stack received) ∧
      v1Opened2.macInputs.generate v1Platform = .ok v1Opened2.signOrMac := by
  have exact := staticDh_exact_iff_length v1Platform
  constructor
  · exact (exact.1 v1Mac2Inputs 8).mpr (Or.inl rfl)
  · exact (exact.2.1 v1Stack v1Initiator v1InitiatorBuffers v1Message1
      v1Message2 v1Opened2 v1Msg3Output (Or.inr rfl) v1Message2_opened
      v1Message3_generated).mpr rfl

end UoscoreUedhoc.Edhoc

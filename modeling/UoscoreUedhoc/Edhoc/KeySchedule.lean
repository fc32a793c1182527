import UoscoreUedhoc.Edhoc.External

/-!
# Key schedule

`hkdf_info.c`, `okm.c`, `prk.c` and `edhoc_exporter.c`.  A label is the list of
its characters.
-/

namespace UoscoreUedhoc.Edhoc

open UoscoreUedhoc

/-- What `create_hkdf_info` encodes. -/
def hkdfInfo (cbor : CborMapEncoder) (th label context : Bytes)
    (okmLen : Nat) : Bytes :=
  cbor.bstr th ++ cbor.tstr label ++ cbor.bstr context ++ cbor.uint32 okmLen

section

variable (platform : EdhocPlatform)

/-- `create_hkdf_info` into a buffer of `INFO_DEFAULT_SIZE` bytes. -/
def createHkdfInfo (th label context : Bytes) (okmLen : Nat) :
    Outcome Bytes :=
  cborEncode (hkdfInfo platform.cbor th label context okmLen) infoDefaultSize

/-- `okm_calc`. -/
def okmCalc (hashAlg : HashAlg) (prk th label context : Bytes)
    (okmLen : Nat) : Outcome Bytes := do
  let info ← createHkdfInfo platform th label context okmLen
  tryExpect (platform.crypto.hkdfExpand hashAlg prk info okmLen)

/-- `edhoc_exporter`. -/
def edhocExporter (appHashAlg : HashAlg) (prk4x3m th4 label : Bytes)
    (outLen : Nat) : Outcome Bytes :=
  okmCalc platform appHashAlg prk4x3m th4 label [] outLen

/-- `prk_derive`. -/
def prkDerive (staticDhAuth : Bool) (suite : Suite)
    (prkIn statPk statSk : Bytes) : Outcome Bytes :=
  if staticDhAuth then do
    let dhSecret ←
      tryExpect
        (platform.crypto.sharedSecretDerive suite.edhocEcdh statSk statPk)
    tryExpect (platform.crypto.hkdfExtract suite.edhocHash prkIn dhSecret)
  else
    .ok prkIn

end

variable {platform : EdhocPlatform}

theorem okmCalc_eq_ok {hashAlg : HashAlg} {prk th label context okm : Bytes}
    {okmLen : Nat} :
    okmCalc platform hashAlg prk th label context okmLen = .ok okm ↔
      (hkdfInfo platform.cbor th label context okmLen).length ≤ infoDefaultSize ∧
        platform.crypto.hkdfExpand hashAlg prk
          (hkdfInfo platform.cbor th label context okmLen) okmLen = some okm := by
  unfold okmCalc createHkdfInfo
  simp only [outcome_bind_eq_ok, cborEncode_eq_ok, tryExpect_eq_ok]
  constructor
  · intro run
    obtain ⟨info, ⟨fits, rfl⟩, expanded⟩ := run
    exact ⟨fits, expanded⟩
  · intro run
    exact ⟨_, ⟨run.1, rfl⟩, run.2⟩

theorem okmCalc_length {hashAlg : HashAlg} {prk th label context okm : Bytes}
    {okmLen : Nat}
    (run : okmCalc platform hashAlg prk th label context okmLen = .ok okm) :
    okm.length = okmLen :=
  platform.crypto.hkdfExpand_length (okmCalc_eq_ok.mp run).2

/-- Both sides of a static Diffie-Hellman derivation agree when their secrets
do. -/
theorem prkDerive_congr {staticDhAuth : Bool} {suite : Suite}
    {prkIn leftPk leftSk rightPk rightSk : Bytes}
    (sameSecret : staticDhAuth = true →
      platform.crypto.sharedSecretDerive suite.edhocEcdh leftSk leftPk =
        platform.crypto.sharedSecretDerive suite.edhocEcdh rightSk rightPk) :
    prkDerive platform staticDhAuth suite prkIn leftPk leftSk =
      prkDerive platform staticDhAuth suite prkIn rightPk rightSk := by
  cases staticDhAuth with
  | false =>
      rfl
  | true =>
      simp only [prkDerive, sameSecret rfl]

end UoscoreUedhoc.Edhoc

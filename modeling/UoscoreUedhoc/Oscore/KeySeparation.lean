import UoscoreUedhoc.Common.CanonicalCbor
import UoscoreUedhoc.Oscore.DerivedKeys

/-!
# Separation of the derived keys

The info of a key derivation determines the ID, the ID context and the type it
was made from.  So HKDF gets different inputs for the Common IV and for the keys
of different IDs, and for different ID contexts.
-/

namespace UoscoreUedhoc.Oscore

open UoscoreUedhoc

/-! ## Info -/

/-- `oscore_create_hkdf_info` into a buffer of any capacity. -/
def oscoreCreateHkdfInfoInto (cbor : CborEncoder) (id idContext : Bytes)
    (aeadAlg : AeadAlgorithm) (type : DeriveType) (capacity : UInt32) :
    Outcome Bytes :=
  let info := hkdfInfo cbor id idContext aeadAlg type
  if info.length ≤ capacity.toNat then .ok info else fail .cborEncodingError

theorem oscoreCreateHkdfInfo_eq (cbor : CborEncoder) (id idContext : Bytes)
    (aeadAlg : AeadAlgorithm) (type : DeriveType) :
    oscoreCreateHkdfInfo cbor id idContext aeadAlg type =
      oscoreCreateHkdfInfoInto cbor id idContext aeadAlg type
        (UInt32.ofNat maxInfoLen) :=
  rfl

theorem oscoreCreateHkdfInfoInto_eq_ok {cbor : CborEncoder}
    {id idContext info : Bytes} {aeadAlg : AeadAlgorithm} {type : DeriveType}
    {capacity : UInt32} :
    oscoreCreateHkdfInfoInto cbor id idContext aeadAlg type capacity =
        .ok info ↔
      info.length ≤ capacity.toNat ∧
        info = hkdfInfo cbor id idContext aeadAlg type := by
  unfold oscoreCreateHkdfInfoInto fail
  dsimp only
  split
  · rename_i fits
    rw [Except.ok.injEq]
    constructor
    · rintro rfl
      exact ⟨fits, rfl⟩
    · intro done
      exact done.2.symm
  · rename_i tooLong
    constructor
    · intro impossible
      cases impossible
    · rintro ⟨fits, rfl⟩
      exact absurd fits tooLong

/-- The encoding of an ID context: `nil` where there is none. -/
def idContextItem (cbor : CborEncoder) (idContext : Bytes) : Bytes :=
  if idContext.length = 0 then cbor.nil else cbor.bstr idContext

theorem hkdfInfo_items (id idContext : Bytes) (aeadAlg : AeadAlgorithm)
    (type : DeriveType) :
    hkdfInfo canonicalCbor id idContext aeadAlg type =
      cborHead 4 5 ++
        (canonicalCbor.bstr id ++
          (idContextItem canonicalCbor idContext ++
            (canonicalCbor.int32 aeadAlg.toInt ++
              (canonicalCbor.tstr type.label ++
                canonicalCbor.uint32 type.len)))) := by
  change canonicalCbor.list _ = _
  simp [CborEncoder.list, canonicalCbor, idContextItem]

theorem canonicalCbor_nil_append_ne_bstr {string leftRest rightRest : Bytes}
    (fits : string.length < 2 ^ 32) :
    canonicalCbor.nil ++ leftRest ≠ canonicalCbor.bstr string ++ rightRest := by
  intro same
  have isHead : canonicalCbor.nil = cborHead 7 22 := by
    decide
  rw [isHead] at same
  simp only [canonicalCbor, List.append_assoc] at same
  have sameType :=
    (cborHead_append_injective (by decide) (by decide) (by decide) fits same).1
  exact absurd sameType (by decide)

theorem idContextItem_append_injective {left right : Bytes}
    (leftFits : left.length < 2 ^ 32) (rightFits : right.length < 2 ^ 32)
    {leftRest rightRest : Bytes}
    (same : idContextItem canonicalCbor left ++ leftRest =
      idContextItem canonicalCbor right ++ rightRest) :
    left = right ∧ leftRest = rightRest := by
  unfold idContextItem at same
  by_cases leftEmpty : left.length = 0
  · by_cases rightEmpty : right.length = 0
    · rw [if_pos leftEmpty, if_pos rightEmpty] at same
      rw [List.length_eq_zero_iff.mp leftEmpty,
        List.length_eq_zero_iff.mp rightEmpty]
      exact ⟨rfl, List.append_cancel_left same⟩
    · rw [if_pos leftEmpty, if_neg rightEmpty] at same
      exact absurd same (canonicalCbor_nil_append_ne_bstr rightFits)
  · by_cases rightEmpty : right.length = 0
    · rw [if_neg leftEmpty, if_pos rightEmpty] at same
      exact absurd same.symm (canonicalCbor_nil_append_ne_bstr leftFits)
    · rw [if_neg leftEmpty, if_neg rightEmpty] at same
      exact canonicalCbor_bstr_append_injective leftFits rightFits same

/-- What comes behind the algorithm is not the same for keys and for IVs. -/
theorem typeItems_injective {left right : DeriveType}
    (same : canonicalCbor.tstr left.label ++ canonicalCbor.uint32 left.len =
      canonicalCbor.tstr right.label ++ canonicalCbor.uint32 right.len) :
    left = right := by
  cases left with
  | key =>
      cases right with
      | key =>
          rfl
      | iv =>
          exact absurd same (by decide)
  | iv =>
      cases right with
      | key =>
          exact absurd same (by decide)
      | iv =>
          rfl

/-- The parts of an info are no longer than the info. -/
theorem lengths_le_hkdfInfo (id idContext : Bytes) (aeadAlg : AeadAlgorithm)
    (type : DeriveType) :
    id.length ≤ (hkdfInfo canonicalCbor id idContext aeadAlg type).length ∧
      idContext.length ≤
        (hkdfInfo canonicalCbor id idContext aeadAlg type).length := by
  have idFits : id.length ≤ (canonicalCbor.bstr id).length := by
    simp only [canonicalCbor, List.length_append]
    omega
  have contextFits :
      idContext.length ≤ (idContextItem canonicalCbor idContext).length := by
    unfold idContextItem
    split
    · omega
    · simp only [canonicalCbor, List.length_append]
      omega
  rw [hkdfInfo_items]
  simp only [List.length_append]
  omega

theorem hkdfInfo_injective {cbor : CborEncoder} (canonical : cbor.IsCanonical)
    {leftId leftContext rightId rightContext : Bytes}
    {aeadAlg : AeadAlgorithm} {leftType rightType : DeriveType}
    (fits :
      (hkdfInfo cbor leftId leftContext aeadAlg leftType).length < 2 ^ 32)
    (same : hkdfInfo cbor leftId leftContext aeadAlg leftType =
      hkdfInfo cbor rightId rightContext aeadAlg rightType) :
    leftId = rightId ∧ leftContext = rightContext ∧ leftType = rightType := by
  have isCanonical : ∀ (id idContext : Bytes) (type : DeriveType),
      hkdfInfo cbor id idContext aeadAlg type =
        hkdfInfo canonicalCbor id idContext aeadAlg type := by
    intro id idContext type
    unfold hkdfInfo CborEncoder.list
    rw [canonical.listStart, canonical.listEnd, canonical.uint32,
      canonical.int32, canonical.bstr, canonical.tstr, canonical.nil]
  rw [isCanonical] at fits same
  rw [isCanonical] at same
  have leftFits := lengths_le_hkdfInfo leftId leftContext aeadAlg leftType
  have rightFits := lengths_le_hkdfInfo rightId rightContext aeadAlg rightType
  rw [← same] at rightFits
  rw [hkdfInfo_items, hkdfInfo_items] at same
  obtain ⟨sameId, same⟩ :=
    canonicalCbor_bstr_append_injective (by omega) (by omega)
      (List.append_cancel_left same)
  obtain ⟨sameContext, same⟩ :=
    idContextItem_append_injective (by omega) (by omega) same
  exact
    ⟨sameId, sameContext, typeItems_injective (List.append_cancel_left same)⟩

/-! ## Inputs of HKDF -/

/-- Secret, salt and info, as `derive` hands them to HKDF. -/
structure HkdfInput where
  masterSecret : Bytes
  masterSalt : Bytes
  info : Bytes
  deriving DecidableEq, Repr

/-- The part of `derive` before HKDF. -/
def derivationInput (cbor : CborEncoder) (cc : CommonContext) (id : Bytes)
    (type : DeriveType) : Outcome HkdfInput := do
  let info ← oscoreCreateHkdfInfo cbor id cc.idContext cc.aeadAlg type
  .ok
    { masterSecret := cc.masterSecret
      masterSalt := cc.masterSalt
      info }

theorem derive_eq_input (platform : Platform) (cc : CommonContext)
    (id : Bytes) (type : DeriveType) (outLen : Nat) :
    derive platform cc id type outLen = (do
      let input ← derivationInput platform.toCborEncoder cc id type
      match cc.kdf with
      | .oscoreSha256 =>
          tryExpect
            (platform.hkdfSha256 input.masterSecret input.masterSalt
              input.info outLen)
      | .other _ => fail .oscoreUnknownHkdf) := by
  unfold derive derivationInput
  cases oscoreCreateHkdfInfo platform.toCborEncoder id cc.idContext cc.aeadAlg
      type with
  | error fault =>
      rfl
  | ok info =>
      rfl

/-- ID and type of the Common IV, the Sender Key and the Recipient Key. -/
def derivations (c : Context) : List (Bytes × DeriveType) :=
  [([], .iv), (c.sc.senderId, .key), (c.rc.recipientId, .key)]

/-- The two derivations never have the same input. -/
def SeparateInputs (cbor : CborEncoder) (left right : CommonContext)
    (leftOf rightOf : Bytes × DeriveType) : Prop :=
  ∀ input, derivationInput cbor left leftOf.1 leftOf.2 = .ok input →
    derivationInput cbor right rightOf.1 rightOf.2 ≠ .ok input

theorem derivationInput_injective {cbor : CborEncoder}
    (canonical : cbor.IsCanonical) {left right : CommonContext}
    (sameAlg : left.aeadAlg = right.aeadAlg)
    {leftOf rightOf : Bytes × DeriveType} {input : HkdfInput}
    (leftDone : derivationInput cbor left leftOf.1 leftOf.2 = .ok input)
    (rightDone : derivationInput cbor right rightOf.1 rightOf.2 = .ok input) :
    leftOf = rightOf ∧ left.idContext = right.idContext := by
  obtain ⟨leftInfo, leftMade, leftIs⟩ := outcome_bind_eq_ok.mp leftDone
  obtain ⟨rightInfo, rightMade, rightIs⟩ := outcome_bind_eq_ok.mp rightDone
  rw [Except.ok.injEq] at leftIs rightIs
  have sameInfo : leftInfo = rightInfo :=
    congrArg HkdfInput.info (leftIs.trans rightIs.symm)
  rw [oscoreCreateHkdfInfo_eq] at leftMade rightMade
  obtain ⟨fits, isLeft⟩ := oscoreCreateHkdfInfoInto_eq_ok.mp leftMade
  obtain ⟨_, isRight⟩ := oscoreCreateHkdfInfoInto_eq_ok.mp rightMade
  have bound := (UInt32.ofNat maxInfoLen).toNat_lt
  have short : leftInfo.length < 2 ^ 32 := by
    omega
  rw [isLeft] at short
  rw [isLeft, isRight, sameAlg] at sameInfo
  rw [sameAlg] at short
  obtain ⟨sameId, sameContext, sameType⟩ :=
    hkdfInfo_injective canonical short sameInfo
  exact ⟨Prod.ext sameId sameType, sameContext⟩

theorem derivations_nodup {c : Context}
    (different : c.sc.senderId ≠ c.rc.recipientId) :
    (derivations c).Pairwise (· ≠ ·) := by
  simp [derivations, different]

/-- Equal infos come from equal IDs, ID contexts and types, so the keys of a
context with different IDs, and those for different ID contexts, are derived
from different inputs. -/
theorem hkdfInfo_separated (cbor : CborEncoder)
    (canonical : cbor.IsCanonical) :
    (∀ (leftId leftContext rightId rightContext : Bytes)
        (aeadAlg : AeadAlgorithm) (leftType rightType : DeriveType)
        (leftCapacity rightCapacity : UInt32) (info : Bytes),
        oscoreCreateHkdfInfoInto cbor leftId leftContext aeadAlg leftType
            leftCapacity = .ok info →
          oscoreCreateHkdfInfoInto cbor rightId rightContext aeadAlg rightType
              rightCapacity = .ok info →
            leftId = rightId ∧ leftContext = rightContext ∧
              leftType = rightType) ∧
      (∀ c : Context, c.sc.senderId ≠ c.rc.recipientId →
        (derivations c).Pairwise (SeparateInputs cbor c.cc c.cc)) ∧
      ∀ left right : Context, left.cc.aeadAlg = right.cc.aeadAlg →
        left.cc.idContext ≠ right.cc.idContext →
        ∀ leftOf ∈ derivations left, ∀ rightOf ∈ derivations right,
          SeparateInputs cbor left.cc right.cc leftOf rightOf := by
  refine ⟨?_, ?_, ?_⟩
  · intro leftId leftContext rightId rightContext aeadAlg leftType rightType
      leftCapacity rightCapacity info leftDone rightDone
    obtain ⟨fits, isLeft⟩ := oscoreCreateHkdfInfoInto_eq_ok.mp leftDone
    obtain ⟨_, isRight⟩ := oscoreCreateHkdfInfoInto_eq_ok.mp rightDone
    have bound := leftCapacity.toNat_lt
    have short : info.length < 2 ^ 32 := by
      omega
    rw [isLeft] at short
    exact hkdfInfo_injective canonical short (isLeft.symm.trans isRight)
  · intro c different
    apply (derivations_nodup different).imp
    intro leftOf rightOf isOther input leftDone rightDone
    exact
      isOther (derivationInput_injective canonical rfl leftDone rightDone).1
  · intro left right sameAlg different leftOf _ rightOf _ input leftDone
      rightDone
    exact
      different
        (derivationInput_injective canonical sameAlg leftDone rightDone).2

/-- The keys of the server of test vector T1. -/
theorem hkdfInfo_separated_t1 :
    (derivations t1Server).Pairwise
      (SeparateInputs canonicalCbor t1Server.cc t1Server.cc) :=
  (hkdfInfo_separated canonicalCbor canonicalCbor_isCanonical).2.1 t1Server
    (by decide)

end UoscoreUedhoc.Oscore

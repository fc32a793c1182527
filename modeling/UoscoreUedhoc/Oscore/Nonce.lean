import UoscoreUedhoc.Lib.PaddedDigits
import UoscoreUedhoc.Oscore.OscoreCoap

/-!
# The AEAD nonce

`create_nonce` of `nonce.c` and `sender_seq_num2piv` of `security_context.c`,
which makes the Partial IV a nonce is built from.  The latter reads the
sequence number through a byte pointer; the model is that of a little-endian
machine.
-/

namespace UoscoreUedhoc.Oscore

open UoscoreUedhoc
open UoscoreUedhoc.PaddedDigits

/-! ## Partial IV -/

/-- The eight bytes of a sequence number in memory. -/
def ssnBytes (ssn : UInt64) : Bytes :=
  [ssn.toUInt8, (ssn >>> 8).toUInt8, (ssn >>> 16).toUInt8,
    (ssn >>> 24).toUInt8, (ssn >>> 32).toUInt8, (ssn >>> 40).toUInt8,
    (ssn >>> 48).toUInt8, (ssn >>> 56).toUInt8]

/-- The loop of `sender_seq_num2piv`, which looks at the bytes before `i` from
the last one down. -/
def pivLoop (p : Bytes) : Nat → Outcome Bytes
  | 0 => .ok [0]
  | i + 1 =>
      if 0 < p.getD i 0 then
        memcpyS maxPivLen p (i + 1)
      else
        pivLoop p i

/-- `sender_seq_num2piv`. -/
def senderSeqNum2piv (ssn : UInt64) : Outcome Bytes :=
  pivLoop (ssnBytes ssn) 8

/-! ## Nonce -/

def nonceLen : Nat := 13
def paddedIdPivLen : Nat := nonceLen - maxPivLen - 1

/-- Copy `source` to the end of a zeroed array.  `_memcpy_s` is told that the
destination has the size of the source and never refuses; a source longer than
the array is written in front of it. -/
def leftPad (size : Nat) (source : Bytes) : Outcome Bytes :=
  if size < source.length then
    undefinedBehaviour
  else
    .ok (List.replicate (size - source.length) 0 ++ source)

/-- The loop that xors the Common IV into the front of the nonce. -/
def xorInto : Bytes → Bytes → Outcome Bytes
  | nonce, [] => .ok nonce
  | [], _ :: _ => undefinedBehaviour
  | byte :: nonce, ivByte :: commonIv => do
      let rest ← xorInto nonce commonIv
      .ok ((byte ^^^ ivByte) :: rest)

/-- `create_nonce`. -/
def createNonce (idPiv piv commonIv : Bytes) : Outcome Bytes := do
  let paddedPiv ← leftPad maxPivLen piv
  let paddedIdPiv ← leftPad paddedIdPivLen idPiv
  xorInto (UInt8.ofNat idPiv.length :: (paddedIdPiv ++ paddedPiv)) commonIv

/-! ## What the Partial IV is -/

theorem digitsValue_ssnBytes (ssn : UInt64) :
    digitsValue (ssnBytes ssn) = ssn.toNat := by
  have bounded : ssn.toNat < 2 ^ 64 := ssn.toNat_lt
  simp only [ssnBytes, digitsValue, List.map_cons, List.map_nil,
    Nat.ofDigits_cons, Nat.ofDigits_nil, UInt64.toNat_toUInt8,
    UInt64.toNat_shiftRight, UInt64.toNat_ofNat,
    Nat.shiftRight_eq_div_pow]
  norm_num
  omega

/-- The loop copies its prefix without the zero bytes at the end. -/
theorem pivLoop_eq {p : Bytes} {i : Nat} (inside : i ≤ p.length) :
    pivLoop p i =
      if trim (p.take i) = [] then
        .ok [0]
      else
        memcpyS maxPivLen p (trim (p.take i)).length := by
  induction i with
  | zero =>
      simp [pivLoop, trim]
  | succ i inductionHypothesis =>
      have available : i < p.length := inside
      have split : p.take (i + 1) = p.take i ++ [p.getD i 0] := by
        rw [List.take_succ_eq_append_getElem available]
        simp [available]
      unfold pivLoop
      rw [split, trim_concat]
      by_cases zero : p.getD i 0 = 0
      · have notPositive : ¬ 0 < p.getD i 0 := by
          rw [zero]
          decide
        rw [if_neg notPositive, if_pos zero]
        exact inductionHypothesis available.le
      · have positive : 0 < p.getD i 0 := UInt8.pos_iff_ne_zero.mpr zero
        rw [if_pos positive, if_neg zero, if_neg (by simp)]
        congr 1
        simp
        omega

/-- The bytes a sequence number becomes: its base-256 digits, the least
significant one first, and one zero byte for zero. -/
def partialIv (ssn : UInt64) : Bytes :=
  if ssn = 0 then [0] else trim (ssnBytes ssn)

theorem trim_ssnBytes_eq_nil_iff {ssn : UInt64} :
    trim (ssnBytes ssn) = [] ↔ ssn = 0 := by
  rw [trim_eq_nil_iff, digitsValue_ssnBytes, ← UInt64.toNat_inj]
  rfl

theorem trim_ssnBytes_length_le_iff {ssn : UInt64} :
    (trim (ssnBytes ssn)).length ≤ maxPivLen ↔ ssn.toNat < 2 ^ 40 := by
  rw [trim_length_le_iff, digitsValue_ssnBytes]
  norm_num [maxPivLen]

theorem senderSeqNum2piv_eq_ok {ssn : UInt64} {piv : Bytes} :
    senderSeqNum2piv ssn = .ok piv ↔
      ssn.toNat < 2 ^ 40 ∧ piv = partialIv ssn := by
  have whole : (ssnBytes ssn).take 8 = ssnBytes ssn := rfl
  have isPrefix := trim_isPrefix (ssnBytes ssn)
  unfold senderSeqNum2piv partialIv
  rw [pivLoop_eq (Nat.le_refl 8), whole, ← trim_ssnBytes_length_le_iff]
  simp only [trim_ssnBytes_eq_nil_iff]
  by_cases zero : ssn = 0
  · subst zero
    simp only [if_true, Except.ok.injEq]
    constructor
    · rintro rfl
      exact ⟨by decide, rfl⟩
    · rintro ⟨_, rfl⟩
      rfl
  · rw [if_neg zero, if_neg zero, memcpyS_eq_ok,
      ← List.prefix_iff_eq_take.mp isPrefix]
    simp only [isPrefix.length_le, true_and]

theorem digitsValue_partialIv (ssn : UInt64) :
    digitsValue (partialIv ssn) = ssn.toNat := by
  unfold partialIv
  by_cases zero : ssn = 0
  · rw [if_pos zero, zero]
    rfl
  · rw [if_neg zero, digitsValue_trim, digitsValue_ssnBytes]

/-- Different sequence numbers have different Partial IVs. -/
theorem partialIv_injective {left right : UInt64}
    (equal : partialIv left = partialIv right) : left = right := by
  apply UInt64.toNat_inj.mp
  rw [← digitsValue_partialIv, equal, digitsValue_partialIv]

theorem partialIv_length {ssn : UInt64} (small : ssn.toNat < 2 ^ 40) :
    0 < (partialIv ssn).length ∧ (partialIv ssn).length ≤ maxPivLen := by
  unfold partialIv
  by_cases zero : ssn = 0
  · rw [if_pos zero]
    decide
  · rw [if_neg zero]
    refine ⟨List.length_pos_iff.mpr ?_, trim_ssnBytes_length_le_iff.mpr small⟩
    rwa [ne_eq, trim_ssnBytes_eq_nil_iff]

theorem padLeft_partialIv (ssn : UInt64) :
    padLeft maxPivLen (partialIv ssn) =
      padLeft maxPivLen (trim (ssnBytes ssn)) := by
  unfold partialIv
  by_cases zero : ssn = 0
  · rw [if_pos zero, trim_ssnBytes_eq_nil_iff.mpr zero]
    rfl
  · rw [if_neg zero]

/-- Padded to five bytes, two Partial IVs agree exactly when one sequence
number is the other one times a power of 256. -/
theorem padLeft_partialIv_eq_iff {left right : UInt64}
    (leftSmall : left.toNat < 2 ^ 40) (rightSmall : right.toNat < 2 ^ 40) :
    padLeft maxPivLen (partialIv left) =
        padLeft maxPivLen (partialIv right) ↔
      ByteShifted left.toNat right.toNat := by
  rw [padLeft_partialIv, padLeft_partialIv,
    padLeft_trim_eq_iff
      (trim_ssnBytes_length_le_iff.mpr leftSmall)
      (trim_ssnBytes_length_le_iff.mpr rightSmall),
    digitsValue_ssnBytes, digitsValue_ssnBytes]

/-! ## What the nonce is -/

theorem leftPad_eq_ok {size : Nat} {source padded : Bytes} :
    leftPad size source = .ok padded ↔
      source.length ≤ size ∧ padded = padLeft size source := by
  unfold leftPad
  by_cases long : size < source.length
  · rw [if_pos long]
    simp only [undefinedBehaviour, reduceCtorEq, false_iff, not_and]
    intro short
    omega
  · rw [if_neg long]
    simp only [Except.ok.injEq, padLeft, eq_comm, not_lt.mp long, true_and]

/-- The xor with the Common IV loses nothing. -/
theorem xorInto_injective {left right commonIv nonce : Bytes}
    (leftDone : xorInto left commonIv = .ok nonce)
    (rightDone : xorInto right commonIv = .ok nonce) : left = right := by
  induction commonIv generalizing left right nonce with
  | nil =>
      simp only [xorInto, Except.ok.injEq] at leftDone rightDone
      rw [leftDone, rightDone]
  | cons ivByte commonIv inductionHypothesis =>
      cases left with
      | nil =>
          cases leftDone
      | cons leftByte left =>
          cases right with
          | nil =>
              cases rightDone
          | cons rightByte right =>
              simp only [xorInto, outcome_bind_eq_ok, Except.ok.injEq]
                at leftDone rightDone
              obtain ⟨leftRest, leftDone, rfl⟩ := leftDone
              obtain ⟨rightRest, rightDone, equal⟩ := rightDone
              rw [List.cons.injEq] at equal
              obtain ⟨sameByte, rfl⟩ := equal
              rw [inductionHypothesis leftDone rightDone,
                (UInt8.xor_left_inj _).mp sameByte]

theorem xorInto_total {nonce commonIv : Bytes}
    (fits : commonIv.length ≤ nonce.length) :
    ∃ result, xorInto nonce commonIv = .ok result ∧
      result.length = nonce.length := by
  induction commonIv generalizing nonce with
  | nil =>
      exact ⟨nonce, by cases nonce <;> rfl, rfl⟩
  | cons ivByte commonIv inductionHypothesis =>
      cases nonce with
      | nil =>
          simp at fits
      | cons byte nonce =>
          obtain ⟨rest, done, length⟩ :=
            @inductionHypothesis nonce (by simpa using fits)
          exact ⟨(byte ^^^ ivByte) :: rest, by simp [xorInto, done],
            by simp [length]⟩

theorem createNonce_eq_ok {idPiv piv commonIv nonce : Bytes} :
    createNonce idPiv piv commonIv = .ok nonce ↔
      piv.length ≤ maxPivLen ∧ idPiv.length ≤ paddedIdPivLen ∧
        xorInto
          (UInt8.ofNat idPiv.length ::
            (padLeft paddedIdPivLen idPiv ++ padLeft maxPivLen piv))
          commonIv = .ok nonce := by
  unfold createNonce
  simp only [outcome_bind_eq_ok, leftPad_eq_ok]
  constructor
  · rintro ⟨_, ⟨pivFits, rfl⟩, _, ⟨idFits, rfl⟩, done⟩
    exact ⟨pivFits, idFits, done⟩
  · rintro ⟨pivFits, idFits, done⟩
    exact ⟨_, ⟨pivFits, rfl⟩, _, ⟨idFits, rfl⟩, done⟩

theorem xorInto_ne_err {nonce commonIv : Bytes} {code : Err} :
    xorInto nonce commonIv ≠ .error (.err code) := by
  induction commonIv generalizing nonce with
  | nil =>
      cases nonce <;> simp [xorInto]
  | cons ivByte commonIv inductionHypothesis =>
      cases nonce with
      | nil =>
          simp [xorInto, undefinedBehaviour]
      | cons byte nonce =>
          intro failed
          rw [xorInto, outcome_bind_eq_error] at failed
          rcases failed with failed | succeeded
          · exact inductionHypothesis failed
          · obtain ⟨_, _, done⟩ := succeeded
            cases done

theorem leftPad_ne_err {size : Nat} {source : Bytes} {code : Err} :
    leftPad size source ≠ .error (.err code) := by
  unfold leftPad undefinedBehaviour
  split <;> simp

/-- A nonce has no error code to return. -/
theorem createNonce_ne_err {idPiv piv commonIv : Bytes} {code : Err} :
    createNonce idPiv piv commonIv ≠ .error (.err code) := by
  intro failed
  unfold createNonce at failed
  simp only [outcome_bind_eq_error] at failed
  rcases failed with failed | ⟨_, _, failed | ⟨_, _, failed⟩⟩
  · exact leftPad_ne_err failed
  · exact leftPad_ne_err failed
  · exact xorInto_ne_err failed

theorem createNonce_total {idPiv piv commonIv : Bytes}
    (pivFits : piv.length ≤ maxPivLen)
    (idFits : idPiv.length ≤ paddedIdPivLen)
    (ivFits : commonIv.length ≤ nonceLen) :
    ∃ nonce, createNonce idPiv piv commonIv = .ok nonce ∧
      nonce.length = nonceLen := by
  have length :
      (UInt8.ofNat idPiv.length ::
        (padLeft paddedIdPivLen idPiv ++ padLeft maxPivLen piv)).length =
          nonceLen := by
    simp only [List.length_cons, List.length_append, padLeft_length idFits,
      padLeft_length pivFits]
    rfl
  obtain ⟨nonce, done, sameLength⟩ :=
    xorInto_total (ivFits.trans length.ge)
  exact
    ⟨nonce, createNonce_eq_ok.mpr ⟨pivFits, idFits, done⟩,
      sameLength.trans length⟩

/-- The nonce determines the identifier and the padded Partial IV. -/
theorem createNonce_eq_iff
    {leftId leftPiv rightId rightPiv commonIv leftNonce rightNonce : Bytes}
    (leftDone : createNonce leftId leftPiv commonIv = .ok leftNonce)
    (rightDone : createNonce rightId rightPiv commonIv = .ok rightNonce) :
    leftNonce = rightNonce ↔
      leftId = rightId ∧
        padLeft maxPivLen leftPiv = padLeft maxPivLen rightPiv := by
  obtain ⟨_, leftIdFits, leftXor⟩ := createNonce_eq_ok.mp leftDone
  obtain ⟨_, rightIdFits, rightXor⟩ := createNonce_eq_ok.mp rightDone
  constructor
  · rintro rfl
    have equal := xorInto_injective leftXor rightXor
    rw [List.cons.injEq] at equal
    obtain ⟨sameSize, samePadded⟩ := equal
    have sameLength : leftId.length = rightId.length := by
      have sizes := congrArg UInt8.toNat sameSize
      have leftSmall : leftId.length < 256 := by
        simp only [paddedIdPivLen, nonceLen, maxPivLen] at leftIdFits
        omega
      have rightSmall : rightId.length < 256 := by
        simp only [paddedIdPivLen, nonceLen, maxPivLen] at rightIdFits
        omega
      simpa [Nat.mod_eq_of_lt leftSmall, Nat.mod_eq_of_lt rightSmall]
        using sizes
    obtain ⟨sameId, samePiv⟩ :=
      List.append_inj samePadded
        (by rw [padLeft_length leftIdFits, padLeft_length rightIdFits])
    exact ⟨padLeft_injective sameLength sameId, samePiv⟩
  · rintro ⟨rfl, samePiv⟩
    rw [samePiv, rightXor] at leftXor
    exact (Except.ok.inj leftXor).symm

end UoscoreUedhoc.Oscore
